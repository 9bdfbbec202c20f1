import Mathlib.Data.List.Basic

namespace FlexTypeclass.Lib

inductive Bracket where
  | opens
  | closes
  | separator
  | plain
  deriving DecidableEq, Repr

namespace Bracket

def next : Bracket → Nat → Option Nat
  | .opens, d => some (d + 1)
  | .closes, d + 1 => some d
  | .closes, 0 => none
  | .separator, d + 1 => some (d + 1)
  | .separator, 0 => none
  | .plain, d => some d

def shift : Bracket → Nat → Nat
  | .opens, d => d + 1
  | .closes, d => d - 1
  | .separator, d => d
  | .plain, d => d

def unseparated : Bracket → Bracket
  | .separator => .plain
  | b => b

theorem shift_of_next {b : Bracket} {d e : Nat} (h : b.next d = some e) : b.shift d = e := by
  cases b <;> cases d <;> simp_all [next,shift]

theorem next_add {b : Bracket} {d e : Nat} (h : b.next d = some e) (k : Nat) :
    b.next (d + k) = some (e + k) := by
  cases b with
  | opens => cases h; simp [next,Nat.add_right_comm]
  | plain => cases h; simp [next]
  | closes =>
    cases d with
    | zero => cases h
    | succ d => cases h; simp [next,Nat.add_right_comm]
  | separator =>
    cases d with
    | zero => cases h
    | succ d => cases h; simp [next,Nat.add_right_comm]

theorem shift_of_unseparated {b : Bracket} {d e : Nat} (h : b.unseparated.next d = some e) :
    b.shift d = e := by
  cases b <;> cases d <;> simp_all [unseparated,next,shift]

theorem unseparated_of_next {b : Bracket} {d e : Nat} (h : b.next d = some e) :
    b.unseparated.next d = some e := by
  cases b <;> cases d <;> simp_all [unseparated,next]

theorem unseparated_next {b : Bracket} {d : Nat} (h : ¬ (b = .separator ∧ d = 0)) :
    b.unseparated.next d = b.next d := by
  cases b <;> cases d <;> simp_all [unseparated,next]

end Bracket

section Split

variable {α : Type} (kind : α → Bracket)

def depthAfter : Nat → List α → Option Nat
  | d, [] => some d
  | d, a :: as => ((kind a).next d).bind (fun e => depthAfter e as)

def splitTop : Nat → List α → List (List α)
  | _, [] => [[]]
  | d, a :: as =>
    if kind a = .separator ∧ d = 0 then [] :: splitTop 0 as
    else (splitTop ((kind a).shift d) as).modifyHead (a :: ·)

def Neutral (d : Nat) (xs : List α) : Prop := depthAfter kind d xs = some d

variable {kind}

theorem depthAfter_append (d : Nat) (xs ys : List α) :
    depthAfter kind d (xs ++ ys) = (depthAfter kind d xs).bind (fun e => depthAfter kind e ys) := by
  induction xs generalizing d with
  | nil => rfl
  | cons a xs ih =>
    simp only [List.cons_append,depthAfter]
    cases (kind a).next d with
    | none => rfl
    | some e => exact ih e

theorem depthAfter_add {d e : Nat} {xs : List α} (h : depthAfter kind d xs = some e) (k : Nat) :
    depthAfter kind (d + k) xs = some (e + k) := by
  induction xs generalizing d with
  | nil => cases h; rfl
  | cons a xs ih =>
    obtain ⟨i,hi,hrest⟩ := Option.bind_eq_some_iff.mp h
    simp only [depthAfter,Bracket.next_add hi,Option.bind_some]
    exact ih hrest

theorem neutral_nil (d : Nat) : Neutral kind d [] := rfl

theorem neutral_append {d : Nat} {xs ys : List α} (hx : Neutral kind d xs) (hy : Neutral kind d ys) :
    Neutral kind d (xs ++ ys) := by
  rw [Neutral,depthAfter_append,hx]
  exact hy

theorem neutral_up {xs : List α} (h : Neutral kind 0 xs) (d : Nat) : Neutral kind d xs := by
  simpa [Neutral] using depthAfter_add h d

theorem neutral_group {d : Nat} {o c : α} {xs : List α} (ho : kind o = .opens)
    (hc : kind c = .closes) (h : Neutral kind (d + 1) xs) :
    Neutral kind d (o :: (xs ++ [c])) := by
  have hopen : (kind o).next d = some (d + 1) := by
    rw [ho]
    cases d <;> rfl
  rw [Neutral,depthAfter,hopen,Option.bind_some,depthAfter_append,h]
  simp [depthAfter,hc,Bracket.next]

theorem neutral_intercalate {d : Nat} {sep : List α} {ps : List (List α)} (hsep : Neutral kind d sep)
    (hps : ∀ p ∈ ps, Neutral kind d p) : Neutral kind d (List.intercalate sep ps) := by
  induction ps with
  | nil => rfl
  | cons p ps ih =>
    have hp := hps p (by simp)
    cases ps with
    | nil => simpa using hp
    | cons q ps =>
      rw [List.intercalate_cons_cons]
      exact neutral_append (neutral_append hp hsep) (ih fun r hr => hps r (by simp [hr]))

theorem splitTop_append {d e : Nat} {xs : List α} (h : depthAfter kind d xs = some e)
    (ys : List α) :
    splitTop kind d (xs ++ ys) = (splitTop kind e ys).modifyHead (xs ++ ·) := by
  induction xs generalizing d with
  | nil =>
    obtain rfl := Option.some.inj h
    rw [List.nil_append]
    cases splitTop kind d ys <;> rfl
  | cons a xs ih =>
    obtain ⟨i,hi,hrest⟩ := Option.bind_eq_some_iff.mp h
    have hinner : ¬ (kind a = .separator ∧ d = 0) := by
      rintro ⟨hk,rfl⟩
      rw [hk] at hi
      cases hi
    simp only [List.cons_append,splitTop,if_neg hinner,Bracket.shift_of_next hi,ih hrest,
      List.modifyHead_modifyHead]
    rfl

theorem splitTop_neutral {xs : List α} (h : Neutral kind 0 xs) : splitTop kind 0 xs = [xs] := by
  have hs := splitTop_append h []
  simpa [splitTop] using hs

theorem splitTop_ne_nil (d : Nat) (xs : List α) : splitTop kind d xs ≠ [] := by
  induction xs generalizing d with
  | nil => simp [splitTop]
  | cons a xs ih =>
    rw [splitTop]
    split
    · simp
    · simpa using ih ((kind a).shift d)

-- Separators outside the brackets are allowed.
def Balanced (kind : α → Bracket) (d : Nat) (xs : List α) : Prop :=
  depthAfter (fun a => (kind a).unseparated) d xs = some 0

instance (d : Nat) (xs : List α) : Decidable (Balanced kind d xs) :=
  inferInstanceAs (Decidable (_ = _))

theorem balanced_cons {d : Nat} {a : α} {xs : List α} (h : Balanced kind d (a :: xs)) :
    (kind a).unseparated.next d = some ((kind a).shift d) ∧ Balanced kind ((kind a).shift d) xs := by
  obtain ⟨e,he,hrest⟩ := Option.bind_eq_some_iff.mp h
  rw [Bracket.shift_of_unseparated he]
  exact ⟨he,hrest⟩

theorem balanced_of_depth {d : Nat} {xs : List α} (h : depthAfter kind d xs = some 0) :
    Balanced kind d xs := by
  induction xs generalizing d with
  | nil => exact h
  | cons a xs ih =>
    obtain ⟨e,he,hrest⟩ := Option.bind_eq_some_iff.mp h
    rw [Balanced,depthAfter,Bracket.unseparated_of_next he,Option.bind_some]
    exact ih hrest

theorem splitTop_balanced {d : Nat} {xs : List α} (h : Balanced kind d xs) {a : α}
    (ha : kind a = .separator) (ys : List α) :
    splitTop kind d (xs ++ a :: ys) = splitTop kind d xs ++ splitTop kind 0 ys := by
  induction xs generalizing d with
  | nil =>
    obtain rfl := Option.some.inj h
    simp [splitTop,ha]
  | cons b xs ih =>
    obtain ⟨hnext,hrest⟩ := balanced_cons h
    rw [List.cons_append,splitTop,splitTop]
    split
    · rename_i htop
      have hzero : (kind b).shift d = 0 := by rw [htop.1,htop.2]; rfl
      rw [hzero] at hrest
      rw [ih hrest,List.cons_append]
    · have hne : splitTop kind ((kind b).shift d) xs ≠ [] := splitTop_ne_nil _ _
      obtain ⟨piece,pieces,hpieces⟩ := List.exists_cons_of_ne_nil hne
      rw [ih hrest,hpieces]
      rfl

theorem splitTop_separator {xs ys : List α} {a : α} (h : Neutral kind 0 xs)
    (ha : kind a = .separator) : splitTop kind 0 (xs ++ a :: ys) = xs :: splitTop kind 0 ys := by
  rw [splitTop_balanced (balanced_of_depth h) ha,splitTop_neutral h,List.singleton_append]

theorem splitTop_intercalate {a : α} (ha : kind a = .separator) {ps : List (List α)}
    (hne : ps ≠ []) (hps : ∀ p ∈ ps, Neutral kind 0 p) :
    splitTop kind 0 (List.intercalate [a] ps) = ps := by
  induction ps with
  | nil => exact absurd rfl hne
  | cons p ps ih =>
    have hp := hps p (by simp)
    cases ps with
    | nil => simpa using splitTop_neutral hp
    | cons q ps =>
      rw [List.intercalate_cons_cons,List.append_assoc,List.singleton_append,
        splitTop_separator hp ha,ih (by simp) fun r hr => hps r (by simp [hr])]

theorem splitTop_length_iff {d : Nat} {xs : List α} (h : Balanced kind d xs) :
    (splitTop kind d xs).length = 1 ↔ depthAfter kind d xs = some 0 := by
  induction xs generalizing d with
  | nil =>
    obtain rfl := Option.some.inj h
    simp [splitTop,depthAfter]
  | cons a xs ih =>
    obtain ⟨hnext,hrest⟩ := balanced_cons h
    rw [splitTop,depthAfter]
    split
    · rename_i htop
      simp [htop.1,htop.2,Bracket.next,splitTop_ne_nil]
    · rename_i htop
      rw [← Bracket.unseparated_next htop,hnext,List.length_modifyHead,ih hrest,Option.bind_some]

theorem map_filter_splitTop {keep : α → Bool} (hkeep : ∀ a, keep a = false → kind a = .plain)
    (d : Nat) (xs : List α) :
    (splitTop kind d xs).map (List.filter keep) = splitTop kind d (xs.filter keep) := by
  induction xs generalizing d with
  | nil => rfl
  | cons a xs ih =>
    cases ha : keep a with
    | false =>
      have hinner : ¬ (kind a = .separator ∧ d = 0) := by simp [hkeep a ha]
      have hdrop : ∀ l : List (List α), (l.modifyHead (a :: ·)).map (List.filter keep) =
          l.map (List.filter keep) := by
        intro l
        cases l <;> simp [ha]
      rw [splitTop,if_neg hinner,hdrop,ih,hkeep a ha]
      simp [Bracket.shift,ha]
    | true =>
      rw [List.filter_cons_of_pos ha,splitTop,splitTop]
      split
      · rw [List.map_cons,ih]
        rfl
      · rw [← ih]
        cases splitTop kind ((kind a).shift d) xs <;> simp [ha]

theorem depthAfter_filter {keep : α → Bool} (hkeep : ∀ a, keep a = false → kind a = .plain)
    (d : Nat) (xs : List α) : depthAfter kind d (xs.filter keep) = depthAfter kind d xs := by
  induction xs generalizing d with
  | nil => rfl
  | cons a xs ih =>
    cases ha : keep a with
    | false =>
      have hnext : (kind a).next d = some d := by rw [hkeep a ha]; rfl
      rw [List.filter_cons_of_neg (by simp [ha]),ih,depthAfter,hnext]
      rfl
    | true =>
      rw [List.filter_cons_of_pos ha,depthAfter,depthAfter]
      exact Option.bind_congr fun e _ => ih e

theorem dropLast_terminated (a : α) (ps : List (List α)) :
    (ps.flatMap (· ++ [a])).dropLast = List.intercalate [a] ps := by
  induction ps with
  | nil => rfl
  | cons p ps ih =>
    cases ps with
    | nil => simp
    | cons q ps =>
      rw [List.flatMap_cons,List.dropLast_append_of_ne_nil (by simp),ih,
        List.intercalate_cons_cons]

theorem dropLast_foldl {ι : Type} (a : α) (f : ι → List α) (items : List ι) :
    (items.foldl (fun code item => code ++ (f item ++ [a])) []).dropLast =
      List.intercalate [a] (items.map f) := by
  rw [List.foldl_append_eq_append,List.nil_append,← dropLast_terminated,List.flatMap_map,
    List.flatMap_def]

end Split

end FlexTypeclass.Lib
