import EspPassthrough.LossyQueue
import EspPassthrough.Machine
import Mathlib.Data.Nat.ModEq
import Mathlib.Data.Int.ModEq

/-! The UART cache of `tcp_bridge.c`: the statically allocated `s_rb`, its three
operations, and their refinement of an overwriting byte queue. -/

namespace EspPassthrough

/-- `ringbuf_t` without its mutex: every call runs to its end while holding it.
A `buffer` of `none` is the null pointer. -/
structure RingBuf where
  buffer : Option (List UInt8)
  size : Nat
  head : Nat
  tail : Nat
  count : Nat

/-- `malloc(n)`: a null pointer, or a block of exactly `n` bytes of any content. -/
abbrev Malloc := (n : Nat) → Option (Vector UInt8 n)

def zeroMalloc : Malloc := fun n => some (Vector.replicate n 0)

def rbInit (malloc : Malloc) (rb : RingBuf) (size : Nat) : RingBuf × Bool :=
  match malloc size with
  | none => ({ rb with buffer := none }, false)
  | some block => (⟨some block.toList, size, 0, 0, 0⟩, true)

/-- One turn of the loop of `rb_write`. -/
def rbPut (rb : RingBuf) (byte : UInt8) : RingBuf :=
  let buffer := rb.buffer.map fun b => b.set rb.head byte
  let head := (rb.head + 1) % rb.size
  if rb.count < rb.size then
    { rb with buffer, head, count := rb.count + 1 }
  else
    { rb with buffer, head, tail := (rb.tail + 1) % rb.size }

def rbWrite (rb : RingBuf) (data : List UInt8) : RingBuf :=
  if rb.buffer.isNone then rb else data.foldl rbPut rb

def RingBuf.slot (rb : RingBuf) (i : Nat) : UInt8 := (rb.buffer.getD []).getD i 0

/-- The loop of `rb_read`. Every turn takes one off `count`, so `count` turns at
the start are enough. -/
def rbReadLoop (maxLen : Int) : Nat → RingBuf → List UInt8 → Nat → RingBuf × List UInt8 × Nat
  | 0, rb, dst, readCnt => (rb, dst, readCnt)
  | turns + 1, rb, dst, readCnt =>
    if readCnt < maxLen ∧ 0 < rb.count then
      rbReadLoop maxLen turns
        { rb with tail := (rb.tail + 1) % rb.size, count := rb.count - 1 }
        (dst.set readCnt (rb.slot rb.tail)) (readCnt + 1)
    else (rb, dst, readCnt)

/-- The state after the call, the destination after it, and the count returned. -/
def rbRead (rb : RingBuf) (dst : List UInt8) (maxLen : Int) : RingBuf × List UInt8 × Nat :=
  if rb.buffer.isNone then (rb, dst, 0) else rbReadLoop maxLen rb.count rb dst 0

/-- The cached bytes, oldest first. -/
def RingBuf.contents (rb : RingBuf) : List UInt8 :=
  (List.range rb.count).map fun i => rb.slot ((rb.tail + i) % rb.size)

structure RingBuf.Wf (rb : RingBuf) : Prop where
  block : rb.buffer.map List.length = some rb.size
  size_pos : 0 < rb.size
  head_lt : rb.head < rb.size
  tail_lt : rb.tail < rb.size
  count_le : rb.count ≤ rb.size
  head_eq : rb.head = (rb.tail + rb.count) % rb.size

@[simp] theorem RingBuf.contents_length (rb : RingBuf) : rb.contents.length = rb.count := by
  simp [RingBuf.contents]

theorem RingBuf.contents_getElem (rb : RingBuf) {i : Nat} (h : i < rb.contents.length) :
    rb.contents[i] = rb.slot ((rb.tail + i) % rb.size) := by
  simp [RingBuf.contents]

theorem rbInit_wf {malloc : Malloc} {rb rb' : RingBuf} {size : Nat} (hs : 0 < size)
    (h : rbInit malloc rb size = (rb', true)) : rb'.Wf ∧ rb'.size = size ∧ rb'.contents = [] := by
  cases hm : malloc size with
  | none => simp [rbInit, hm] at h
  | some block =>
    obtain rfl : ⟨some block.toList, size, 0, 0, 0⟩ = rb' := by simpa [rbInit, hm] using h
    exact ⟨⟨by simp, hs, hs, hs, hs.le, by simp⟩, rfl, rfl⟩

theorem RingBuf.Wf.buffer_isSome {rb : RingBuf} (h : rb.Wf) : rb.buffer.isNone = false := by
  have hb := h.block
  cases hbuf : rb.buffer with
  | none => simp [hbuf] at hb
  | some b => rfl

theorem RingBuf.Wf.slot_set {rb : RingBuf} (h : rb.Wf) {i j : Nat} (hj : j < rb.size)
    (byte : UInt8) :
    ((rb.buffer.map fun b => b.set j byte).getD []).getD i 0 = if i = j then byte else rb.slot i := by
  have hb := h.block
  cases hbuf : rb.buffer with
  | none => simp [hbuf] at hb
  | some b =>
    have hlen : b.length = rb.size := by simpa [hbuf] using hb
    by_cases hij : i = j
    · subst hij
      simp [List.getD_eq_getElem?_getD, hlen, hj]
    · simp [RingBuf.slot, hbuf, List.getD_eq_getElem?_getD, hij, Ne.symm hij]

theorem mod_add_ne {size tail i j : Nat} (hij : i < j) (hj : j < i + size) :
    (tail + i) % size ≠ (tail + j) % size := by
  intro he
  have hm : i ≡ j [MOD size] := Nat.ModEq.add_left_cancel' tail he
  have hle := Nat.le_of_dvd (by omega) ((Nat.modEq_iff_dvd' hij.le).mp hm)
  omega

theorem rbPut_of_lt {rb : RingBuf} (hc : rb.count < rb.size) (byte : UInt8) :
    rbPut rb byte =
      { rb with buffer := rb.buffer.map fun b => b.set rb.head byte,
                head := (rb.head + 1) % rb.size, count := rb.count + 1 } := by
  simp [rbPut, hc]

theorem rbPut_of_full {rb : RingBuf} (hc : rb.count = rb.size) (byte : UInt8) :
    rbPut rb byte =
      { rb with buffer := rb.buffer.map fun b => b.set rb.head byte,
                head := (rb.head + 1) % rb.size, tail := (rb.tail + 1) % rb.size } := by
  simp [rbPut, hc]

theorem rbPut_size (rb : RingBuf) (byte : UInt8) : (rbPut rb byte).size = rb.size := by
  by_cases hc : rb.count < rb.size <;> simp [rbPut, hc]

theorem rbPut_wf {rb : RingBuf} (h : rb.Wf) (byte : UInt8) : (rbPut rb byte).Wf := by
  have hb : (rb.buffer.map fun b => b.set rb.head byte).map List.length = some rb.size := by
    rw [← h.block, Option.map_map]
    congr 1
    funext b
    simp
  have hmod := fun n => Nat.mod_lt n h.size_pos
  rcases h.count_le.lt_or_eq with hc | hc
  · rw [rbPut_of_lt hc]
    refine ⟨hb, h.size_pos, hmod _, h.tail_lt, hc, ?_⟩
    simp only [h.head_eq, Nat.mod_add_mod, Nat.add_assoc]
  · rw [rbPut_of_full hc]
    refine ⟨hb, h.size_pos, hmod _, hmod _, h.count_le, ?_⟩
    simp only [h.head_eq, hc, Nat.mod_add_mod, Nat.add_mod_right, Nat.mod_mod]

/-- The byte just stored sits `count` slots after the tail, on top of the oldest
one when the buffer was full; every other cached byte stays where it was. -/
theorem RingBuf.Wf.slot_put {rb : RingBuf} (h : rb.Wf) (byte : UInt8) {i : Nat}
    (hlo : rb.count < i + rb.size) (hi : i ≤ rb.count) :
    (rbPut rb byte).slot ((rb.tail + i) % rb.size) =
      if i = rb.count then byte else rb.slot ((rb.tail + i) % rb.size) := by
  have hbuf : (rbPut rb byte).buffer = rb.buffer.map fun b => b.set rb.head byte := by
    by_cases hc : rb.count < rb.size <;> simp [rbPut, hc]
  have hs := h.slot_set (i := (rb.tail + i) % rb.size) h.head_lt byte
  rw [← hbuf] at hs
  rw [RingBuf.slot, hs, h.head_eq]
  by_cases he : i = rb.count
  · simp [he]
  · have hne : (rb.tail + i) % rb.size ≠ (rb.tail + rb.count) % rb.size :=
      mod_add_ne (lt_of_le_of_ne hi he) hlo
    simp [he, hne]

theorem rbPut_contents {rb : RingBuf} (h : rb.Wf) (byte : UInt8) :
    (rbPut rb byte).contents = LossyQueue.push rb.size rb.contents byte := by
  have hp := h.size_pos
  rcases h.count_le.lt_or_eq with hc | hc
  · have hl : (rb.contents ++ [byte]).length ≤ rb.size := by
      simpa using Nat.succ_le_of_lt hc
    rw [LossyQueue.push, LossyQueue.rtake_of_length_le hl]
    refine List.ext_getElem (by simp [rbPut_of_lt hc]) fun i hi _ => ?_
    have hi' : i ≤ rb.count := by simpa [rbPut_of_lt hc, Nat.lt_succ_iff] using hi
    have ht : (rbPut rb byte).tail = rb.tail := by rw [rbPut_of_lt hc]
    rw [RingBuf.contents_getElem, ht, rbPut_size, h.slot_put byte (by omega) hi']
    by_cases he : i = rb.count
    · simp [he]
    · simp [he, lt_of_le_of_ne hi' he, RingBuf.contents_getElem]
  · have hd : (rb.contents ++ [byte]).rtake rb.size = (rb.contents ++ [byte]).drop 1 := by
      simp [List.rtake, hc]
    have hcount : (rbPut rb byte).count = rb.count := by rw [rbPut_of_full hc]
    rw [LossyQueue.push, hd]
    refine List.ext_getElem (by simp [hcount]) fun i hi _ => ?_
    have hi' : 1 + i ≤ rb.count := by
      simpa [hcount, Nat.add_comm] using Nat.succ_le_of_lt hi
    have ht : (rbPut rb byte).tail = (rb.tail + 1) % rb.size := by rw [rbPut_of_full hc]
    rw [RingBuf.contents_getElem, ht, rbPut_size, Nat.mod_add_mod, Nat.add_assoc,
      h.slot_put byte (by omega) hi', List.getElem_drop]
    by_cases he : 1 + i = rb.count
    · simp [he]
    · simp [he, lt_of_le_of_ne hi' he, RingBuf.contents_getElem]

theorem rbWrite_spec {rb : RingBuf} (h : rb.Wf) (data : List UInt8) :
    (rbWrite rb data).Wf ∧ (rbWrite rb data).size = rb.size ∧
      (rbWrite rb data).contents = LossyQueue.pushAll rb.size rb.contents data := by
  have hw : rbWrite rb data = data.foldl rbPut rb := by simp [rbWrite, h.buffer_isSome]
  have hl : rb.contents.length ≤ rb.size := by simpa using h.count_le
  rw [hw, ← LossyQueue.foldl_push hl data]
  clear hw hl
  induction data generalizing rb with
  | nil => exact ⟨h, rfl, rfl⟩
  | cons byte data ih =>
    obtain ⟨hwf, hsize, hcont⟩ := ih (rbPut_wf h byte)
    refine ⟨hwf, hsize.trans (rbPut_size rb byte), ?_⟩
    simpa only [List.foldl_cons, rbPut_contents h, rbPut_size] using hcont

/-- One turn of the loop of `rb_read`. -/
def rbTake (rb : RingBuf) : RingBuf :=
  { rb with tail := (rb.tail + 1) % rb.size, count := rb.count - 1 }

theorem rbTake_wf {rb : RingBuf} (h : rb.Wf) (hc : 0 < rb.count) : (rbTake rb).Wf := by
  have hle := h.count_le
  refine ⟨h.block, h.size_pos, h.head_lt, Nat.mod_lt _ h.size_pos, ?_, ?_⟩
  · simp only [rbTake]
    omega
  · simp only [rbTake, Nat.mod_add_mod]
    rw [h.head_eq, show rb.tail + 1 + (rb.count - 1) = rb.tail + rb.count by omega]

theorem rbTake_contents {rb : RingBuf} (h : rb.Wf) (hc : 0 < rb.count) :
    rb.contents = rb.slot rb.tail :: (rbTake rb).contents := by
  refine List.ext_getElem (by simp [rbTake]; omega) fun i hi _ => ?_
  rw [RingBuf.contents_getElem]
  cases i with
  | zero => simp [Nat.mod_eq_of_lt h.tail_lt]
  | succ i =>
    rw [List.getElem_cons_succ, RingBuf.contents_getElem]
    simp only [rbTake, Nat.mod_add_mod, Nat.add_assoc, Nat.add_comm 1 i]
    rfl

theorem rbReadLoop_spec {rb : RingBuf} (h : rb.Wf) {maxLen : Int} {dst : List UInt8}
    (hdst : maxLen ≤ dst.length) {readCnt : Nat} (hcnt : readCnt ≤ dst.length) :
    let k := min (maxLen - readCnt).toNat rb.count
    let r := rbReadLoop maxLen rb.count rb dst readCnt
    r.1.Wf ∧ r.1.size = rb.size ∧ r.1.contents = rb.contents.drop k ∧
      r.2.1 = dst.take readCnt ++ rb.contents.take k ++ dst.drop (readCnt + k) ∧
      r.2.2 = readCnt + k := by
  induction hn : rb.count generalizing rb dst readCnt with
  | zero => simp [rbReadLoop, h]
  | succ n ih =>
    by_cases hlt : (readCnt : Int) < maxLen
    · have hc : 0 < rb.count := by omega
      have hset : readCnt < dst.length := by omega
      obtain ⟨m, hm⟩ : ∃ m, (maxLen - readCnt).toNat = m + 1 := ⟨(maxLen - readCnt).toNat - 1, by omega⟩
      have hm' : (maxLen - ((readCnt + 1 : Nat) : Int)).toNat = m := by omega
      have hh := ih (rbTake_wf h hc)
        (show maxLen ≤ (dst.set readCnt (rb.slot rb.tail)).length by simpa using hdst)
        (show readCnt + 1 ≤ _ by rw [List.length_set]; omega) (by simp [rbTake, hn])
      simp only [hm'] at hh
      obtain ⟨hwf, hsize, hcont, hout, hret⟩ := hh
      have hloop : rbReadLoop maxLen (n + 1) rb dst readCnt =
          rbReadLoop maxLen n (rbTake rb) (dst.set readCnt (rb.slot rb.tail)) (readCnt + 1) := by
        simp [rbReadLoop, hlt, hc, rbTake]
      simp only [hloop, hm, Nat.succ_min_succ, rbTake_contents h hc, List.drop_succ_cons,
        List.take_succ_cons]
      refine ⟨hwf, hsize, hcont, ?_, by omega⟩
      rw [hout, List.take_succ_eq_append_getElem (by simpa using hset), List.take_set_of_le le_rfl,
        List.drop_set_of_lt (by omega)]
      simp [Nat.add_assoc, Nat.add_comm 1 (min m n)]
    · have hz : (maxLen - readCnt).toNat = 0 := by omega
      simp [rbReadLoop, hlt, hz, h]

theorem rbRead_spec {rb : RingBuf} (h : rb.Wf) {maxLen : Int} {dst : List UInt8}
    (hdst : maxLen ≤ dst.length) :
    let k := min maxLen.toNat rb.count
    (rbRead rb dst maxLen).1.Wf ∧ (rbRead rb dst maxLen).1.size = rb.size ∧
      (rbRead rb dst maxLen).1.contents = rb.contents.drop k ∧
      (rbRead rb dst maxLen).2.1 = rb.contents.take k ++ dst.drop k ∧
      (rbRead rb dst maxLen).2.2 = k := by
  have hh := rbReadLoop_spec h hdst (Nat.zero_le _)
  simpa [rbRead, h.buffer_isSome] using hh

/-- A call with its arguments; `rb_read` is given a destination of at least
`max_len` bytes. -/
inductive RbCall where
  | write (data : List UInt8)
  | read (dst : List UInt8) (maxLen : Int) (fits : maxLen ≤ dst.length)

def rbCall (rb : RingBuf) : RbCall → RingBuf × Option (List UInt8 × Nat)
  | .write data => (rbWrite rb data, none)
  | .read dst maxLen _ => ((rbRead rb dst maxLen).1, some (rbRead rb dst maxLen).2)

/-- The byte queue that the cache stands for. -/
def queueCall (size : Nat) (q : List UInt8) : RbCall → List UInt8 × Option (List UInt8 × Nat)
  | .write data => (LossyQueue.pushAll size q data, none)
  | .read dst maxLen _ =>
    let k := min maxLen.toNat q.length
    (q.drop k, some (q.take k ++ dst.drop k, k))

theorem rbCall_wf {rb : RingBuf} (h : rb.Wf) (c : RbCall) :
    (rbCall rb c).1.Wf ∧ (rbCall rb c).1.size = rb.size := by
  cases c with
  | write data =>
    obtain ⟨hw, hs, _⟩ := rbWrite_spec h data
    exact ⟨hw, hs⟩
  | read dst maxLen fits =>
    obtain ⟨hw, hs, _⟩ := rbRead_spec h fits
    exact ⟨hw, hs⟩

theorem rbCall_refines {rb : RingBuf} (h : rb.Wf) (c : RbCall) :
    queueCall rb.size rb.contents c = ((rbCall rb c).1.contents, (rbCall rb c).2) := by
  cases c with
  | write data => simp [queueCall, rbCall, (rbWrite_spec h data).2.2]
  | read dst maxLen fits =>
    obtain ⟨_, _, hcont, hout, hret⟩ := rbRead_spec h fits
    simp [queueCall, rbCall, hcont, Prod.ext_iff, hout, hret]

/-- Over any sequence of writes and reads the cache is a byte queue that keeps
its last `size` bytes, and its indices stay in range. -/
theorem ring_refines_queue {malloc : Malloc} {rb₀ rb : RingBuf} {size : Nat} (hs : 0 < size)
    (hinit : rbInit malloc rb₀ size = (rb, true)) (calls : List RbCall) :
    let r := Machine.replies rbCall rb calls
    r.1.size = size ∧ r.1.head < size ∧ r.1.tail < size ∧ r.1.count ≤ size ∧
      r.1.head = (r.1.tail + r.1.count) % size ∧
      Machine.replies (queueCall size) [] calls = (r.1.contents, r.2) := by
  obtain ⟨hwf, hsize, hcont⟩ := rbInit_wf hs hinit
  obtain ⟨⟨hw, he⟩, hr⟩ := @Machine.replies_refine _ _ _ _ rbCall (queueCall size)
    RingBuf.contents (fun rb => rb.Wf ∧ rb.size = size)
    (fun rb c h => ⟨(rbCall_wf h.1 c).1, (rbCall_wf h.1 c).2.trans h.2⟩)
    (fun rb c h => h.2 ▸ rbCall_refines h.1 c) calls rb ⟨hwf, hsize⟩
  rw [hcont] at hr
  intro r
  have hhead := hw.head_lt
  have htail := hw.tail_lt
  have hcount := hw.count_le
  have hpos := hw.head_eq
  rw [he] at hhead htail hcount hpos
  exact ⟨he, hhead, htail, hcount, hpos, hr⟩

theorem ring_refines_queue_lapped :
    let rb : RingBuf := ⟨some [0, 0], 2, 0, 0, 0⟩
    let calls : List RbCall := [.write [1, 2, 3, 4, 5], .read [9] 1 (by decide)]
    Machine.replies rbCall rb calls = (⟨some [5, 4], 2, 1, 0, 1⟩, [none, some ([4], 1)]) ∧
      Machine.replies (queueCall 2) [] calls =
        ((Machine.replies rbCall rb calls).1.contents, (Machine.replies rbCall rb calls).2) :=
  ⟨rfl, (@ring_refines_queue (fun n => some (Vector.replicate n 0)) ⟨none, 0, 0, 0, 0⟩ _ 2
    (by decide) rfl _).2.2.2.2.2⟩

end EspPassthrough
