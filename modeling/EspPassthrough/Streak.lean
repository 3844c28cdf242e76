import Mathlib.Data.List.DropRight
import Mathlib.Tactic.Common

/-! How long a sequence of observations has been satisfying a predicate, and when
that has first been the case for a given number of them. -/

namespace Streak

variable {α : Type*}

/-- The number of observations in a row, up to the last one, that satisfy `p`. -/
def streak (p : α → Bool) (l : List α) : Nat := (l.rtakeWhile p).length

/-- The last `k` observations all satisfy `p`. -/
def Held (p : α → Bool) (k : Nat) (l : List α) : Prop :=
  k ≤ l.length ∧ ∀ a ∈ l.rtake k, p a = true

/-- The last `k` observations satisfy `p` at index `n`, and at no index before. -/
def FirstHeld (p : α → Bool) (k : Nat) (l : List α) (n : Nat) : Prop :=
  n < l.length ∧ Held p k (l.take (n + 1)) ∧ ∀ m < n, ¬Held p k (l.take (m + 1))

/-- No observation but the last ends a streak of `k`. -/
def Fresh (p : α → Bool) (k : Nat) (l : List α) : Prop := ∀ m < l.length, streak p (l.take m) < k

instance (p : α → Bool) (k : Nat) (l : List α) : Decidable (Held p k l) :=
  inferInstanceAs (Decidable (_ ∧ _))

instance (p : α → Bool) (k : Nat) (l : List α) (n : Nat) : Decidable (FirstHeld p k l n) :=
  inferInstanceAs (Decidable (_ ∧ _ ∧ _))

section

variable {p : α → Bool} {l : List α} {a : α} {k : Nat}

@[simp] theorem streak_nil : streak p [] = 0 := by
  simp [streak]

theorem streak_concat_pos (h : p a = true) : streak p (l ++ [a]) = streak p l + 1 := by
  rw [streak, List.rtakeWhile_concat_pos _ _ _ h, List.length_append, List.length_singleton, streak]

theorem streak_concat_neg (h : ¬p a = true) : streak p (l ++ [a]) = 0 := by
  rw [streak, List.rtakeWhile_concat_neg _ _ _ h, List.length_nil]

theorem le_streak_iff : k ≤ streak p l ↔ Held p k l := by
  induction l using List.reverseRecOn generalizing k with
  | nil => simp [Held]
  | append_singleton l a ih =>
    rcases k with _ | k
    · simp [Held]
    · rw [Held, List.rtake_concat_succ, List.length_append, List.length_singleton,
        Nat.add_le_add_iff_right]
      simp only [List.forall_mem_append, List.forall_mem_singleton]
      by_cases h : p a = true
      · rw [streak_concat_pos h, Nat.add_le_add_iff_right, ih, Held, and_iff_left h]
      · rw [streak_concat_neg h]
        exact ⟨fun hle => absurd hle (Nat.not_succ_le_zero k), fun hheld => absurd hheld.2.2 h⟩

theorem fresh_nil : Fresh p k [] := by
  intro m hm
  exact absurd hm (Nat.not_lt_zero m)

theorem fresh_concat : Fresh p k (l ++ [a]) ↔ Fresh p k l ∧ streak p l < k := by
  constructor
  · intro h
    refine ⟨fun m hm => ?_, ?_⟩
    · have hlt := h m (by rw [List.length_append]; omega)
      rwa [List.take_append_of_le_length hm.le] at hlt
    · have hlt := h l.length (by simp)
      rwa [List.take_left] at hlt
  · rintro ⟨hfresh, hlast⟩ m hm
    rw [List.length_append, List.length_singleton] at hm
    rw [List.take_append_of_le_length (by omega)]
    rcases (Nat.lt_succ_iff.mp hm).lt_or_eq with hlt | rfl
    · exact hfresh m hlt
    · rwa [List.take_length]

theorem Fresh.streak_le (h : Fresh p k l) : streak p l ≤ k := by
  induction l using List.reverseRecOn with
  | nil => simp
  | append_singleton l a _ =>
    obtain ⟨_, hlt⟩ := fresh_concat.mp h
    by_cases ha : p a = true
    · rw [streak_concat_pos ha]
      exact hlt
    · rw [streak_concat_neg ha]
      exact Nat.zero_le k

theorem firstHeld_iff (hk : 0 < k) {n : Nat} (hn : n < l.length) :
    FirstHeld p k l n ↔ Fresh p k (l.take (n + 1)) ∧ k ≤ streak p (l.take (n + 1)) := by
  have hlen : (l.take (n + 1)).length = n + 1 := by
    rw [List.length_take]
    omega
  rw [le_streak_iff, FirstHeld, and_iff_right hn, and_comm]
  apply and_congr_left
  intro _
  constructor
  · intro h m hm
    rw [hlen] at hm
    rw [List.take_take, min_eq_left hm.le]
    rcases m with _ | m
    · rwa [List.take_zero, streak_nil]
    · exact not_le.mp fun hle => h m (by omega) (le_streak_iff.mp hle)
  · intro h m hm hheld
    have hlt := h (m + 1) (by omega)
    rw [List.take_take, min_eq_left (by omega)] at hlt
    exact absurd (le_streak_iff.mpr hheld) (by omega)

theorem Held.exists_infix {n : Nat} (h : Held p k (l.take n)) :
    ∃ v, v <:+: l ∧ v.length = k ∧ ∀ a ∈ v, p a = true := by
  refine ⟨(l.take n).rtake k, ?_, ?_, h.2⟩
  · have hsuffix : (l.take n).rtake k <:+ l.take n := List.drop_suffix _ _
    exact hsuffix.isInfix.trans (List.take_prefix n l).isInfix
  · have hle := h.1
    rw [List.rtake, List.length_drop]
    omega

end

end Streak
