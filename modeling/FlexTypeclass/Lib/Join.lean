import FlexTypeclass.Lib.SplitTop
import Mathlib.Data.List.DropRight

namespace FlexTypeclass.Lib

section Lengths

variable {α β : Type} {f : α → List β}

theorem le_length_flatMap (hf : ∀ a, f a ≠ []) (as : List α) : as.length ≤ (as.flatMap f).length := by
  induction as with
  | nil => simp
  | cons a as ih =>
    have ha := List.length_pos_iff.mpr (hf a)
    rw [List.flatMap_cons,List.length_append,List.length_cons]
    omega

theorem length_flatMap_iff (hf : ∀ a, f a ≠ []) (as : List α) :
    (as.flatMap f).length = as.length ↔ ∀ a ∈ as, (f a).length = 1 := by
  induction as with
  | nil => simp
  | cons a as ih =>
    have ha := List.length_pos_iff.mpr (hf a)
    have has := le_length_flatMap hf as
    rw [List.flatMap_cons,List.length_append,List.length_cons,List.forall_mem_cons,← ih]
    omega

theorem flatMap_eq_self_iff {f : α → List α} (hf : ∀ a, f a ≠ []) (as : List α) :
    as.flatMap f = as ↔ ∀ a ∈ as, f a = [a] := by
  constructor
  · intro h
    have hlengths := (length_flatMap_iff hf as).mp (congrArg List.length h)
    induction as with
    | nil => simp
    | cons a as ih =>
      obtain ⟨ha,has⟩ := List.forall_mem_cons.mp hlengths
      obtain ⟨b,hb⟩ := List.length_eq_one_iff.mp ha
      rw [List.flatMap_cons,hb,List.singleton_append] at h
      obtain ⟨rfl,hrest⟩ := List.cons.inj h
      exact List.forall_mem_cons.mpr ⟨hb,ih hrest has⟩
  · intro h
    rw [List.flatMap_congr h,List.flatMap_singleton']

end Lengths

section Trim

variable {α : Type} {blank : α → Bool}

def trim (blank : α → Bool) (xs : List α) : List α := (xs.dropWhile blank).rdropWhile blank

theorem trim_blank {a : α} (ha : blank a = true) (xs : List α) : trim blank (a :: xs) = trim blank xs := by
  rw [trim,List.dropWhile_cons_of_pos ha,trim]

theorem trim_eq_self_iff {xs : List α} : trim blank xs = xs ↔
    (∀ a, xs.head? = some a → blank a = false) ∧ ∀ a, xs.getLast? = some a → blank a = false := by
  have hfirst : xs.dropWhile blank = xs ↔ ∀ a, xs.head? = some a → blank a = false := by
    cases xs <;> simp [List.dropWhile_eq_self_iff]
  have hlast : xs.rdropWhile blank = xs ↔ ∀ a, xs.getLast? = some a → blank a = false := by
    rw [List.rdropWhile_eq_self_iff]
    cases xs <;> simp [List.getLast?_eq_some_getLast]
  rw [← hfirst,← hlast,trim]
  constructor
  · intro h
    have hdrop : xs.dropWhile blank = xs := by
      refine (List.dropWhile_suffix blank).eq_of_length_le ?_
      have hle := (List.rdropWhile_prefix blank (xs.dropWhile blank)).length_le
      rwa [h] at hle
    rw [hdrop] at h
    exact ⟨hdrop,h⟩
  · rintro ⟨hdrop,hrdrop⟩
    rw [hdrop,hrdrop]

end Trim

section Entries

variable {α : Type} (kind : α → Bracket) (blank : α → Bool)

def pieces (text : List α) : List (List α) := (splitTop kind 0 text).map (trim blank)

-- An empty text has no entries.
def listEntries (text : List α) : List (List α) := if text.isEmpty then [] else pieces kind blank text

variable {kind blank}

theorem pieces_ne_nil (text : List α) : pieces kind blank text ≠ [] := by
  simpa [pieces] using splitTop_ne_nil 0 text

theorem pieces_neutral {text : List α} (h : Neutral kind 0 text) :
    pieces kind blank text = [trim blank text] := by
  rw [pieces,splitTop_neutral h,List.map_singleton]

theorem length_pieces_iff {text : List α} (h : Balanced kind 0 text) :
    (pieces kind blank text).length = 1 ↔ Neutral kind 0 text := by
  rw [pieces,List.length_map]
  exact splitTop_length_iff h

theorem pieces_eq_self_iff {text : List α} (h : Balanced kind 0 text) :
    pieces kind blank text = [text] ↔ Neutral kind 0 text ∧ trim blank text = text := by
  constructor
  · intro hpieces
    have hneutral : Neutral kind 0 text := (length_pieces_iff h).mp (congrArg List.length hpieces)
    rw [pieces_neutral hneutral] at hpieces
    exact ⟨hneutral,List.singleton_inj.mp hpieces⟩
  · rintro ⟨hneutral,htrim⟩
    rw [pieces_neutral hneutral,htrim]

theorem pieces_blank {b : α} (hkind : kind b = .plain) (hblank : blank b = true) (text : List α) :
    pieces kind blank (b :: text) = pieces kind blank text := by
  have hb : splitTop kind 0 (b :: text) = (splitTop kind 0 text).modifyHead (b :: ·) := by
    simp [splitTop,hkind,Bracket.shift]
  rw [pieces,hb,pieces]
  cases splitTop kind 0 text with
  | nil => rfl
  | cons piece rest => rw [List.modifyHead_cons,List.map_cons,List.map_cons,trim_blank hblank]

theorem intercalate_ne_nil (sep : List α) {ps : List (List α)} (hne : ps ≠ []) (hps : ∀ p ∈ ps, p ≠ []) :
    List.intercalate sep ps ≠ [] := by
  cases ps with
  | nil => exact absurd rfl hne
  | cons p ps =>
    have hp := hps p List.mem_cons_self
    cases ps with
    | nil => simpa using hp
    | cons q ps =>
      rw [List.intercalate_cons_cons]
      simp [hp]

section Join

variable {a b : α} (ha : kind a = .separator) (hkind : kind b = .plain) (hblank : blank b = true)
include ha hkind hblank

theorem pieces_intercalate {ps : List (List α)} (hne : ps ≠ []) (hps : ∀ p ∈ ps, Balanced kind 0 p) :
    pieces kind blank (List.intercalate [a,b] ps) = ps.flatMap (pieces kind blank) := by
  induction ps with
  | nil => exact absurd rfl hne
  | cons p ps ih =>
    obtain ⟨hp,hrest⟩ := List.forall_mem_cons.mp hps
    cases ps with
    | nil => simp
    | cons q ps =>
      have hsplit (rest : List α) : pieces kind blank (p ++ a :: b :: rest) =
          pieces kind blank p ++ pieces kind blank rest := by
        rw [pieces,splitTop_balanced hp ha,List.map_append,← pieces,← pieces,pieces_blank hkind hblank]
      rw [List.intercalate_cons_cons,List.append_assoc,List.cons_append,List.singleton_append,hsplit,
        ih (by simp) hrest]
      exact List.flatMap_cons.symm

variable {ps : List (List α)} (hps : ∀ p ∈ ps, p ≠ [] ∧ Balanced kind 0 p)
include hps

theorem listEntries_intercalate :
    listEntries kind blank (List.intercalate [a,b] ps) = ps.flatMap (pieces kind blank) := by
  rcases eq_or_ne ps [] with rfl | hne
  · rfl
  · have htext := intercalate_ne_nil [a,b] hne fun p hp => (hps p hp).1
    rw [listEntries,if_neg (by simpa using htext)]
    exact pieces_intercalate ha hkind hblank hne fun p hp => (hps p hp).2

theorem listEntries_eq_iff : listEntries kind blank (List.intercalate [a,b] ps) = ps ↔
    ∀ p ∈ ps, Neutral kind 0 p ∧ trim blank p = p := by
  rw [listEntries_intercalate ha hkind hblank hps,flatMap_eq_self_iff pieces_ne_nil]
  exact forall₂_congr fun p hp => pieces_eq_self_iff (hps p hp).2

theorem length_listEntries_iff :
    (listEntries kind blank (List.intercalate [a,b] ps)).length = ps.length ↔
      ∀ p ∈ ps, Neutral kind 0 p := by
  rw [listEntries_intercalate ha hkind hblank hps,length_flatMap_iff pieces_ne_nil]
  exact forall₂_congr fun p hp => length_pieces_iff (hps p hp).2

theorem listEntries_neutral (h : ∀ p ∈ ps, Neutral kind 0 p) :
    listEntries kind blank (List.intercalate [a,b] ps) = ps.map (trim blank) := by
  rw [listEntries_intercalate ha hkind hblank hps,← List.flatMap_pure_eq_map]
  exact List.flatMap_congr fun p hp => pieces_neutral (h p hp)

end Join

end Entries

end FlexTypeclass.Lib
