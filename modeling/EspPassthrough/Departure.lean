import Mathlib.Data.List.Flatten
import Mathlib.Data.List.Perm.Basic
import Mathlib.Tactic.Common

/-! A ledger of the blocks that have left a store: lost in it, or taken by a party
that hands the block on and learns later how much of it has been accepted. -/

/-- `sent` is missing while the party still has the block in hand. -/
inductive Departure (κ α : Type*) where
  | lost (block : List α)
  | taken (k : κ) (block : List α) (sent : Option Nat)

namespace Departure

variable {κ α : Type*}

def block : Departure κ α → List α
  | .lost b => b
  | .taken _ b _ => b

def lostPart : Departure κ α → List α
  | .lost b => b
  | .taken _ _ _ => []

def heldPart : Departure κ α → List α
  | .taken _ b none => b
  | _ => []

def accepted : Departure κ α → List α
  | .taken _ b (some n) => b.take n
  | _ => []

/-- What was handed on and not accepted. -/
def refused : Departure κ α → List α
  | .taken _ b (some n) => b.drop n
  | _ => []

/-- The party still has the block in hand. -/
def OpenBy (k : κ) : Departure κ α → Prop
  | .taken j _ none => j = k
  | _ => False

def TakenBy (k : κ) : Departure κ α → Prop
  | .taken j _ _ => j = k
  | .lost _ => False

section

variable [DecidableEq κ]

def acceptedBy (k : κ) (d : Departure κ α) : List α :=
  match d with
  | .taken j b (some n) => if j = k then b.take n else []
  | _ => []

/-- The party has learnt that `n` elements of its block were accepted. -/
def settle (k : κ) (n : Nat) : Departure κ α → Departure κ α
  | .taken j b none => if j = k then .taken j b (some n) else .taken j b none
  | d => d

end

theorem accepted_sublist_block (d : Departure κ α) : d.accepted.Sublist d.block := by
  match d with
  | .lost b => exact List.nil_sublist b
  | .taken _ b none => exact List.nil_sublist b
  | .taken _ b (some n) => exact List.take_sublist n b

/-- Every element of a block is in one of its four parts. -/
theorem block_length (d : Departure κ α) :
    d.block.length = d.lostPart.length + d.heldPart.length + d.accepted.length + d.refused.length := by
  match d with
  | .lost b => simp [block, lostPart, heldPart, accepted, refused]
  | .taken _ b none => simp [block, lostPart, heldPart, accepted, refused]
  | .taken _ b (some n) =>
    simp only [block, lostPart, heldPart, accepted, refused, List.length_nil, List.length_take,
      List.length_drop]
    omega

theorem flatMap_block_length (l : List (Departure κ α)) :
    (l.flatMap block).length = (l.flatMap lostPart).length + (l.flatMap heldPart).length +
      (l.flatMap accepted).length + (l.flatMap refused).length := by
  induction l with
  | nil => rfl
  | cons d l ih =>
    have hd := d.block_length
    simp only [List.flatMap_cons, List.length_append]
    omega

theorem OpenBy.takenBy {k : κ} {d : Departure κ α} (h : d.OpenBy k) : d.TakenBy k := by
  match d, h with
  | .taken _ _ none, h => exact h

section

variable [DecidableEq κ] {k j : κ} {n : Nat} {d : Departure κ α}

theorem acceptedBy_sublist_block (k : κ) (d : Departure κ α) : (d.acceptedBy k).Sublist d.block := by
  match d with
  | .lost b => exact List.nil_sublist b
  | .taken _ b none => exact List.nil_sublist b
  | .taken j b (some n) =>
    rw [acceptedBy]
    split
    · exact List.take_sublist n b
    · exact List.nil_sublist b

theorem acceptedBy_of_not_takenBy (h : ¬d.TakenBy k) : d.acceptedBy k = [] := by
  match d with
  | .lost b => rfl
  | .taken _ b none => rfl
  | .taken j b (some n) => exact if_neg h

theorem settle_of_not_openBy (h : ¬d.OpenBy k) : d.settle k n = d := by
  match d with
  | .lost b => rfl
  | .taken _ b (some m) => rfl
  | .taken j b none => exact if_neg h

theorem block_settle (k : κ) (n : Nat) (d : Departure κ α) : (d.settle k n).block = d.block := by
  match d with
  | .lost b => rfl
  | .taken _ b (some m) => rfl
  | .taken j b none =>
    rw [settle]
    split <;> rfl

theorem lostPart_settle (k : κ) (n : Nat) (d : Departure κ α) :
    (d.settle k n).lostPart = d.lostPart := by
  match d with
  | .lost b => rfl
  | .taken _ b (some m) => rfl
  | .taken j b none =>
    rw [settle]
    split <;> rfl

theorem takenBy_settle : (d.settle k n).TakenBy j ↔ d.TakenBy j := by
  match d with
  | .lost b => rfl
  | .taken _ b (some m) => rfl
  | .taken i b none =>
    rw [settle]
    split <;> rfl

theorem openBy_settle : (d.settle k n).OpenBy j ↔ d.OpenBy j ∧ j ≠ k := by
  match d with
  | .lost b => simp [settle, OpenBy]
  | .taken _ b (some m) => simp [settle, OpenBy]
  | .taken i b none =>
    by_cases hi : i = k
    · subst hi
      simp [settle, OpenBy, eq_comm]
    · simp only [settle, if_neg hi, OpenBy]
      constructor
      · rintro rfl
        exact ⟨rfl, hi⟩
      · exact fun h => h.1

theorem map_settle_of_not_openBy {l : List (Departure κ α)} (h : ∀ d ∈ l, ¬d.OpenBy k) :
    l.map (settle k n) = l := by
  have hid : ∀ d ∈ l, d.settle k n = d := fun d hd => settle_of_not_openBy (h d hd)
  rw [List.map_congr_left hid, List.map_id']

end

/-! ## Ledgers of parties that have one block in hand at a time -/

/-- The block that the party has in hand is the last one it has taken. -/
structure Open (k : κ) (b : List α) (l pre post : List (Departure κ α)) : Prop where
  eq : l = pre ++ .taken k b none :: post
  pre_shut : ∀ d ∈ pre, ¬d.OpenBy k
  post_other : ∀ d ∈ post, ¬d.TakenBy k

/-- `hand` is what the party has in hand, if it has anything. -/
def Holds (k : κ) (l : List (Departure κ α)) (hand : Option (List α)) : Prop :=
  match hand with
  | none => ∀ d ∈ l, ¬d.OpenBy k
  | some b => ∃ pre post, Open k b l pre post

section

variable {k j : κ} {l : List (Departure κ α)}

theorem Holds.take (h : Holds k l none) (b : List α) : Holds k (l ++ [.taken k b none]) (some b) :=
  ⟨l, [], rfl, h, by simp⟩

theorem Holds.append {hand : Option (List α)} (h : Holds k l hand) {d : Departure κ α}
    (hd : ¬d.TakenBy k) : Holds k (l ++ [d]) hand := by
  match hand, h with
  | none, h =>
    intro e he
    rcases List.mem_append.mp he with he | he
    · exact h e he
    · obtain rfl := List.mem_singleton.mp he
      exact fun ho => hd ho.takenBy
  | some b, ⟨pre, post, heq, hpre, hpost⟩ =>
    refine ⟨pre, post ++ [d], by rw [heq]; simp, hpre, ?_⟩
    intro e he
    rcases List.mem_append.mp he with he | he
    · exact hpost e he
    · obtain rfl := List.mem_singleton.mp he
      exact hd

variable [DecidableEq κ] {n : Nat}

theorem Open.settle_eq {b : List α} {pre post : List (Departure κ α)} (h : Open k b l pre post) :
    l.map (settle k n) = pre ++ .taken k b (some n) :: post := by
  have hpost : ∀ d ∈ post, ¬d.OpenBy k := fun d hd ho => h.post_other d hd ho.takenBy
  rw [h.eq, List.map_append, List.map_cons, map_settle_of_not_openBy h.pre_shut,
    map_settle_of_not_openBy hpost, settle, if_pos rfl]

theorem holds_none_settle (l : List (Departure κ α)) (n : Nat) :
    Holds k (l.map (settle k n)) none := by
  intro d hd
  obtain ⟨e, _, rfl⟩ := List.mem_map.mp hd
  exact fun ho => (openBy_settle.mp ho).2 rfl

theorem Holds.settle_other {hand : Option (List α)} (h : Holds j l hand) (hj : j ≠ k) (n : Nat) :
    Holds j (l.map (settle k n)) hand := by
  match hand, h with
  | none, h =>
    intro d hd
    obtain ⟨e, he, rfl⟩ := List.mem_map.mp hd
    exact fun ho => h e he (openBy_settle.mp ho).1
  | some b, ⟨pre, post, heq, hpre, hpost⟩ =>
    refine ⟨pre.map (settle k n), post.map (settle k n), ?_, ?_, ?_⟩
    · rw [heq, List.map_append, List.map_cons, settle, if_neg hj]
    · intro d hd
      obtain ⟨e, he, rfl⟩ := List.mem_map.mp hd
      exact fun ho => hpre e he (openBy_settle.mp ho).1
    · intro d hd
      obtain ⟨e, he, rfl⟩ := List.mem_map.mp hd
      exact fun ht => hpost e he (takenBy_settle.mp ht)

theorem flatMap_block_settle (l : List (Departure κ α)) :
    (l.map (settle k n)).flatMap block = l.flatMap block := by
  rw [List.flatMap_map]
  exact List.flatMap_congr fun d _ => block_settle k n d

theorem flatMap_lostPart_settle (l : List (Departure κ α)) :
    (l.map (settle k n)).flatMap lostPart = l.flatMap lostPart := by
  rw [List.flatMap_map]
  exact List.flatMap_congr fun d _ => lostPart_settle k n d

/-- What a party's block brings is added to the end of what it has had accepted. -/
theorem Holds.acceptedBy_settle {b : List α} (h : Holds k l (some b)) (n : Nat) :
    (l.map (settle k n)).flatMap (acceptedBy k) = l.flatMap (acceptedBy k) ++ b.take n := by
  obtain ⟨pre, post, hopen⟩ := h
  have hpost : post.flatMap (acceptedBy k) = [] := by
    rw [List.flatMap_eq_nil_iff]
    exact fun d hd => acceptedBy_of_not_takenBy (hopen.post_other d hd)
  rw [hopen.settle_eq, hopen.eq]
  simp [hpost, acceptedBy]

theorem acceptedBy_settle_other (hj : j ≠ k) (l : List (Departure κ α)) :
    (l.map (settle k n)).flatMap (acceptedBy j) = l.flatMap (acceptedBy j) := by
  rw [List.flatMap_map]
  refine List.flatMap_congr fun d _ => ?_
  match d with
  | .lost b => rfl
  | .taken _ b (some m) => rfl
  | .taken i b none =>
    by_cases hi : i = k
    · simp [settle, acceptedBy, hi, Ne.symm hj]
    · simp [settle, hi]

theorem Holds.accepted_settle {b : List α} (h : Holds k l (some b)) (n : Nat) :
    ((l.map (settle k n)).flatMap accepted).Perm (l.flatMap accepted ++ b.take n) := by
  obtain ⟨pre, post, hopen⟩ := h
  rw [hopen.settle_eq, hopen.eq]
  simp only [List.flatMap_append, List.flatMap_cons, accepted, List.nil_append, List.append_assoc]
  exact List.perm_append_comm.append_left _

end

/-! ## Ledgers where only one block is in hand at a time -/

/-- Nothing has been taken since a block that is still in somebody's hands. -/
def OneInHand (l : List (Departure κ α)) : Prop :=
  l.Pairwise fun d e => (∃ k, d.OpenBy k) → ∀ k, ¬e.TakenBy k

section

variable {k : κ} {l : List (Departure κ α)}

theorem OneInHand.lost (h : OneInHand l) (b : List α) : OneInHand (l ++ [.lost b]) := by
  rw [OneInHand, List.pairwise_append]
  refine ⟨h, by simp, ?_⟩
  rintro d _ e he - j
  obtain rfl := List.mem_singleton.mp he
  exact id

theorem OneInHand.take (h : OneInHand l) (hshut : ∀ d ∈ l, ∀ j, ¬d.OpenBy j) (b : List α) :
    OneInHand (l ++ [.taken k b none]) := by
  rw [OneInHand, List.pairwise_append]
  refine ⟨h, by simp, ?_⟩
  rintro d hd e - ⟨j, ho⟩
  exact absurd ho (hshut d hd j)

variable [DecidableEq κ]

theorem OneInHand.settle (h : OneInHand l) (k : κ) (n : Nat) :
    OneInHand (l.map (Departure.settle k n)) := by
  rw [OneInHand, List.pairwise_map]
  refine h.imp fun {d e} hde => ?_
  rintro ⟨j, ho⟩ i ht
  exact hde ⟨j, (openBy_settle.mp ho).1⟩ i (takenBy_settle.mp ht)

theorem OneInHand.accepted_settle {b : List α} (h : OneInHand l) (hk : Holds k l (some b)) (n : Nat) :
    (l.map (Departure.settle k n)).flatMap accepted = l.flatMap accepted ++ b.take n := by
  obtain ⟨pre, post, hopen⟩ := hk
  rw [OneInHand, hopen.eq, List.pairwise_append, List.pairwise_cons] at h
  have hpost : post.flatMap accepted = [] := by
    rw [List.flatMap_eq_nil_iff]
    intro d hd
    have hother := h.2.1.1 d hd ⟨k, rfl⟩
    match d with
    | .lost b => rfl
    | .taken j b _ => exact absurd rfl (hother j)
  rw [hopen.settle_eq, hopen.eq]
  simp [hpost, accepted]

end

end Departure
