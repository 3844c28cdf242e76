import Mathlib.Data.Finset.Max
import Mathlib.Data.List.DropRight
import Mathlib.Order.Interval.Finset.Nat

/-! A queue that holds at most `cap` elements and drops its oldest one when a
further element arrives, and the positions that such losses delete from the
stream of everything ever pushed. -/

namespace LossyQueue

variable {α : Type*}

def push (cap : Nat) (q : List α) (x : α) : List α := (q ++ [x]).rtake cap

def pushAll (cap : Nat) (q xs : List α) : List α := (q ++ xs).rtake cap

theorem rtake_length (n : Nat) (q : List α) : (q.rtake n).length = min n q.length := by
  simp only [List.rtake, List.length_drop]
  omega

theorem rtake_of_length_le {n : Nat} {q : List α} (h : q.length ≤ n) : q.rtake n = q := by
  simp [List.rtake, Nat.sub_eq_zero_of_le h]

theorem rtake_append_rtake (n : Nat) (q xs : List α) :
    (q.rtake n ++ xs).rtake n = (q ++ xs).rtake n := by
  by_cases h : q.length ≤ n
  · rw [rtake_of_length_le h]
  · have hd : q.length - n ≤ q.length := by omega
    simp only [List.rtake, List.length_append, List.length_drop]
    rw [show q.length - (q.length - n) + xs.length - n = xs.length by omega,
      show q.length + xs.length - n = (q.length - n) + xs.length by omega, ← List.drop_drop,
      List.drop_append_of_le_length hd]

theorem foldl_push {cap : Nat} {q : List α} (h : q.length ≤ cap) (xs : List α) :
    xs.foldl (push cap) q = pushAll cap q xs := by
  induction xs using List.reverseRecOn with
  | nil => simp [pushAll, rtake_of_length_le h]
  | append_singleton xs x ih =>
    simp only [List.foldl_append, List.foldl_cons, List.foldl_nil, ih, push, pushAll,
      rtake_append_rtake, List.append_assoc]

theorem pushAll_length (cap : Nat) (q xs : List α) :
    (pushAll cap q xs).length = min cap (q.length + xs.length) := by
  rw [pushAll, rtake_length, List.length_append]

theorem pushAll_nil {cap : Nat} {q : List α} (h : q.length ≤ cap) : pushAll cap q [] = q := by
  rw [pushAll, List.append_nil, rtake_of_length_le h]

theorem pushAll_append (cap : Nat) (q xs ys : List α) :
    pushAll cap q (xs ++ ys) = pushAll cap (pushAll cap q xs) ys := by
  simp only [pushAll, rtake_append_rtake, List.append_assoc]

theorem pushAll_drop {cap p : Nat} {w q : List α} (h : q = w.drop p) (hp : p ≤ w.length)
    (xs : List α) :
    pushAll cap q xs = (w ++ xs).drop (p + (q.length + xs.length - cap)) := by
  subst h
  rw [pushAll, List.rtake, ← List.drop_append_of_le_length hp, List.drop_drop]
  simp only [List.length_append, List.length_drop]
  congr 1
  omega

/-! Deleting positions from a stream. -/

def eraseFrom (lost : Finset Nat) : Nat → List α → List α
  | _, [] => []
  | k, x :: xs => if k ∈ lost then eraseFrom lost (k + 1) xs else x :: eraseFrom lost (k + 1) xs

/-- The stream without the elements at the given positions. -/
def erase (lost : Finset Nat) (w : List α) : List α := eraseFrom lost 0 w

theorem eraseFrom_append (lost : Finset Nat) (k : Nat) (u v : List α) :
    eraseFrom lost k (u ++ v) = eraseFrom lost k u ++ eraseFrom lost (k + u.length) v := by
  induction u generalizing k with
  | nil => simp [eraseFrom]
  | cons x u ih =>
    have hk : k + (u.length + 1) = k + 1 + u.length := by omega
    by_cases hx : k ∈ lost <;> simp [eraseFrom, hx, ih, hk]

theorem eraseFrom_congr {lost lost' : Finset Nat} {k : Nat} {u : List α}
    (h : ∀ p, k ≤ p → p < k + u.length → (p ∈ lost ↔ p ∈ lost')) :
    eraseFrom lost k u = eraseFrom lost' k u := by
  induction u generalizing k with
  | nil => rfl
  | cons x u ih =>
    have hh := ih (k := k + 1) fun p hp hp' => h p (by omega) (by simp only [List.length_cons]; omega)
    have hk := h k le_rfl (by simp)
    simp only [eraseFrom, hh, hk]

theorem eraseFrom_of_kept {lost : Finset Nat} {k : Nat} {u : List α} (h : ∀ p ∈ lost, p < k) :
    eraseFrom lost k u = u := by
  induction u generalizing k with
  | nil => rfl
  | cons x u ih =>
    have hk : k ∉ lost := fun hk => lt_irrefl k (h k hk)
    simp [eraseFrom, hk, ih fun p hp => Nat.lt_succ_of_lt (h p hp)]

theorem eraseFrom_of_lost {lost : Finset Nat} {k : Nat} {u : List α}
    (h : ∀ p, k ≤ p → p < k + u.length → p ∈ lost) : eraseFrom lost k u = [] := by
  induction u generalizing k with
  | nil => rfl
  | cons x u ih =>
    have hk : k ∈ lost := h k le_rfl (by simp)
    simp only [eraseFrom, hk, if_true]
    exact ih fun p hp hp' => h p (by omega) (by simp only [List.length_cons]; omega)

@[simp] theorem erase_empty (w : List α) : erase ∅ w = w :=
  eraseFrom_of_kept (by simp)

theorem erase_append_of_kept {lost : Finset Nat} {u v : List α} (h : ∀ p ∈ lost, p < u.length) :
    erase lost (u ++ v) = erase lost u ++ v := by
  rw [erase, eraseFrom_append, erase, eraseFrom_of_kept (u := v) (by simpa using h)]

theorem erase_block (lost : Finset Nat) (u v : List α) :
    erase (lost ∪ Finset.Ico u.length (u.length + v.length)) (u ++ v) = erase lost u := by
  rw [erase, eraseFrom_append, eraseFrom_of_lost (u := v), List.append_nil, erase]
  · refine eraseFrom_congr fun p _ hp => ?_
    simp only [Nat.zero_add] at hp
    simp [hp]
  · intro p hp hp'
    simp only [Nat.zero_add] at hp hp'
    simp [hp, hp']

theorem erase_take_block {lost : Finset Nat} {p d : Nat} {w : List α} (h : p + d ≤ w.length) :
    erase (lost ∪ Finset.Ico p (p + d)) (w.take (p + d)) = erase lost (w.take p) := by
  have hpre : (w.take p).length = p := List.length_take_of_le (by omega)
  have hblock : ((w.drop p).take d).length = d := by
    rw [List.length_take, List.length_drop]
    omega
  have he := erase_block lost (w.take p) ((w.drop p).take d)
  rwa [hpre, hblock, ← List.take_add] at he

end LossyQueue
