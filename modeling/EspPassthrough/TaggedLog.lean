import Mathlib.Data.List.Basic
import Mathlib.Data.List.Flatten
import Mathlib.Data.List.Induction
import Mathlib.Tactic.Common

/-! A log of chunks that several parties write to in turn: the whole of it, and
what one party has written. -/

namespace TaggedLog

variable {κ α : Type*}

/-- Everything written, in the order of the writes. -/
def all (log : List (κ × List α)) : List α := log.flatMap Prod.snd

/-- What one party has written. -/
def of [DecidableEq κ] (k : κ) (log : List (κ × List α)) : List α :=
  (log.filter fun e => e.1 = k).flatMap Prod.snd

theorem all_concat (log : List (κ × List α)) (e : κ × List α) : all (log ++ [e]) = all log ++ e.2 := by
  rw [all, List.flatMap_append, List.flatMap_singleton, all]

section

variable [DecidableEq κ] {k : κ}

theorem of_concat_self (log : List (κ × List α)) (chunk : List α) :
    of k (log ++ [(k, chunk)]) = of k log ++ chunk := by
  simp [of]

theorem of_concat_ne {j : κ} (h : j ≠ k) (log : List (κ × List α)) (chunk : List α) :
    of k (log ++ [(j, chunk)]) = of k log := by
  simp [of, h]

theorem of_sublist_all (k : κ) (log : List (κ × List α)) : (of k log).Sublist (all log) :=
  List.filter_sublist.flatMap _

theorem of_eq_nil {log : List (κ × List α)} (h : ∀ e ∈ log, e.1 ≠ k) : of k log = [] := by
  have hnone : (log.filter fun e => e.1 = k) = [] := by
    rw [List.filter_eq_nil_iff]
    intro e he
    simpa using h e he
  rw [of, hnone, List.flatMap_nil]

end

/-- Where every party writes only after the earlier ones have written their last,
the log is what the parties have written, one after the other. -/
theorem all_of_sorted {log : List (Nat × List α)} (hsorted : (log.map Prod.fst).Pairwise (· ≤ ·))
    {n : Nat} (hlt : ∀ e ∈ log, e.1 < n) : all log = (List.range n).flatMap fun k => of k log := by
  induction log using List.reverseRecOn generalizing n with
  | nil => simp [all, of]
  | append_singleton log e ih =>
    obtain ⟨k, chunk⟩ := e
    rw [List.map_append, List.pairwise_append] at hsorted
    obtain ⟨hsorted, _, hlast⟩ := hsorted
    have hle : ∀ e ∈ log, e.1 < k + 1 := by
      intro e he
      have h := hlast e.1 (List.mem_map_of_mem he) k (by simp)
      omega
    have hk : k < n := hlt (k, chunk) (by simp)
    have hbefore : ∀ j, j ≠ k → of j (log ++ [(k, chunk)]) = of j log := by
      intro j hj
      exact of_concat_ne hj.symm log chunk
    -- the parties after the one that writes have not written anything yet
    have hafter : ∀ j, k < j → of j (log ++ [(k, chunk)]) = [] := by
      intro j hj
      rw [hbefore j (Nat.ne_of_gt hj)]
      refine of_eq_nil fun e he => ?_
      have h := hle e he
      omega
    obtain ⟨m, rfl⟩ : ∃ m, n = k + 1 + m := ⟨n - (k + 1), by omega⟩
    have hhead : ((List.range k).flatMap fun j => of j (log ++ [(k, chunk)])) =
        (List.range k).flatMap fun j => of j log := by
      refine List.flatMap_congr fun j hj => hbefore j ?_
      exact Nat.ne_of_lt (List.mem_range.mp hj)
    have htail : (((List.range m).map (k + 1 + ·)).flatMap fun j => of j (log ++ [(k, chunk)])) = [] := by
      rw [List.flatMap_eq_nil_iff]
      intro j hj
      obtain ⟨i, _, rfl⟩ := List.mem_map.mp hj
      exact hafter _ (by omega)
    calc all (log ++ [(k, chunk)])
      _ = ((List.range (k + 1)).flatMap fun j => of j log) ++ chunk := by
        rw [all_concat, ih hsorted hle]
      _ = ((List.range k).flatMap fun j => of j log) ++ of k (log ++ [(k, chunk)]) := by
        rw [List.range_succ, List.flatMap_append, List.flatMap_singleton, of_concat_self,
          List.append_assoc]
      _ = (List.range (k + 1 + m)).flatMap fun j => of j (log ++ [(k, chunk)]) := by
        rw [List.range_add, List.flatMap_append, htail, List.append_nil, List.range_succ,
          List.flatMap_append, List.flatMap_singleton, hhead]

end TaggedLog
