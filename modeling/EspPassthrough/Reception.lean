import EspPassthrough.PostHandler

/-! Reception of the body under any declared length and any answers of
`httpd_req_recv`, and what each way out of the handler leaves behind. -/

namespace EspPassthrough

open CText

/-- `httpd_req_recv` puts at most as many bytes in the buffer as it was asked for. -/
def recvFits (totalLen : Int) (curLen : Nat) : List RecvResult → Prop
  | [] => True
  | r :: rs => (curLen : Int) < totalLen →
      r.received ≤ totalLen - curLen ∧ (0 < r.received → recvFits totalLen (curLen + r.data.length) rs)

def HttpdReq.RecvFits (req : HttpdReq) : Prop := recvFits req.totalLen 0 req.recv

/-- After some chunks that leave the body incomplete, a call gives no byte. -/
def HttpdReq.FailsWith (req : HttpdReq) (received : Int) : Prop :=
  received ≤ 0 ∧ ∃ (chunks : List (List UInt8)) (r : RecvResult) (rest : List RecvResult),
    (∀ c ∈ chunks, c ≠ []) ∧ chunks.flatten.length < req.contentLen.toNat ∧
      req.recv = chunks.map .bytes ++ r :: rest ∧ r.received = received

/-- The answers so far are chunks that leave the body incomplete. -/
def HttpdReq.Waits (req : HttpdReq) : Prop :=
  ∃ chunks : List (List UInt8), (∀ c ∈ chunks, c ≠ []) ∧
    chunks.flatten.length < req.contentLen.toNat ∧ req.recv = chunks.map .bytes

theorem RecvResult.received_pos {r : RecvResult} (h : 0 < r.received) :
    ∃ c, c ≠ [] ∧ r = .bytes c := by
  cases r with
  | bytes c =>
    refine ⟨c, ?_, rfl⟩
    rintro rfl
    exact absurd h (by decide)
  | error code =>
    simp only [RecvResult.received] at h
    omega

/-- The loop on a block `pre ++ mid ++ post` of which `pre` is filled and `mid` is to
be filled. -/
theorem recvLoop_fits {rs : List RecvResult} {pre mid post : List UInt8}
    (h : recvFits (pre.length + mid.length : Nat) pre.length rs) :
    ∃ chunks : List (List UInt8), (∀ c ∈ chunks, c ≠ []) ∧
      ((chunks.flatten.length = mid.length ∧ (∃ rest, rs = chunks.map .bytes ++ rest) ∧
          recvLoop (pre.length + mid.length : Nat) (pre ++ (mid ++ post)) pre.length rs =
            .complete (pre ++ (chunks.flatten ++ post))) ∨
        (chunks.flatten.length < mid.length ∧ ∃ r rest, rs = chunks.map .bytes ++ r :: rest ∧
          r.received ≤ 0 ∧
          recvLoop (pre.length + mid.length : Nat) (pre ++ (mid ++ post)) pre.length rs =
            .failed r.received) ∨
        (chunks.flatten.length < mid.length ∧ rs = chunks.map .bytes ∧
          recvLoop (pre.length + mid.length : Nat) (pre ++ (mid ++ post)) pre.length rs =
            .receiving)) := by
  induction rs generalizing pre mid with
  | nil =>
    refine ⟨[], by simp, ?_⟩
    by_cases hmid : mid = []
    · subst hmid
      exact .inl ⟨rfl, ⟨[], rfl⟩, recvLoop_done (by simp) _ _⟩
    · have hpos := List.length_pos_iff.mpr hmid
      exact .inr (.inr ⟨hpos, rfl, by rw [recvLoop, if_pos (by omega)]⟩)
  | cons r rs ih =>
    by_cases hmid : mid = []
    · subst hmid
      exact ⟨[], by simp, .inl ⟨rfl, ⟨r :: rs, rfl⟩, recvLoop_done (by simp) _ _⟩⟩
    have hpos := List.length_pos_iff.mpr hmid
    have hlt : (pre.length : Int) < (pre.length + mid.length : Nat) := by omega
    obtain ⟨hle, hnext⟩ := h hlt
    by_cases hrec : r.received ≤ 0
    · exact ⟨[], by simp, .inr (.inl ⟨hpos, r, rs, rfl, hrec, by rw [recvLoop, if_pos hlt, if_pos hrec]⟩)⟩
    -- one more chunk: it fills the front of `mid`, and the loop goes on behind it
    obtain ⟨c, hc, rfl⟩ := RecvResult.received_pos (not_le.mp hrec)
    have hclen : c.length ≤ mid.length := by
      simp only [RecvResult.received] at hle
      omega
    obtain ⟨m₁, m₂, rfl, h1⟩ : ∃ m₁ m₂, mid = m₁ ++ m₂ ∧ c.length = m₁.length :=
      ⟨mid.take c.length, mid.drop c.length, (List.take_append_drop _ _).symm, by
        rw [List.length_take]; omega⟩
    have hcur : pre.length + (m₁ ++ m₂).length = (pre ++ c).length + m₂.length := by
      simp only [List.length_append, h1]
      omega
    have hfits : recvFits ((pre ++ c).length + m₂.length : Nat) (pre ++ c).length rs := by
      rw [← hcur, @List.length_append _ pre c]
      exact hnext (not_le.mp hrec)
    have hstep : recvLoop (pre.length + (m₁ ++ m₂).length : Nat) (pre ++ (m₁ ++ m₂ ++ post)) pre.length
        (.bytes c :: rs) = recvLoop ((pre ++ c).length + m₂.length : Nat) (pre ++ c ++ (m₂ ++ post))
          (pre ++ c).length rs := by
      rw [hcur, List.append_assoc m₁, recvLoop_bytes hc h1 (by rw [List.length_append]; omega)]
    obtain ⟨chunks, hne, hcases⟩ := ih hfits
    have hne' : ∀ c' ∈ c :: chunks, c' ≠ [] := by
      intro c' hc'
      rcases List.mem_cons.mp hc' with rfl | hc'
      · exact hc
      · exact hne c' hc'
    have hlen : (c :: chunks).flatten.length = c.length + chunks.flatten.length := by
      rw [List.flatten_cons, List.length_append]
    refine ⟨c :: chunks, hne', ?_⟩
    rw [hstep, hlen, List.length_append, h1]
    rcases hcases with ⟨hall, ⟨rest, rfl⟩, hrun⟩ | ⟨hpart, r', rest, rfl, hr', hrun⟩ | ⟨hpart, rfl, hrun⟩
    · exact .inl ⟨by omega, ⟨rest, rfl⟩, by rw [hrun]; simp [List.append_assoc]⟩
    · exact .inr (.inl ⟨by omega, r', rest, rfl, hr', hrun⟩)
    · exact .inr (.inr ⟨by omega, rfl, hrun⟩)

theorem recvLoop_block {sdk : Sdk} {req : HttpdReq} {block : List UInt8}
    (hlen : req.contentLen.toNat < 2 ^ 31 - 1) (hfits : req.RecvFits)
    (hb : sdk.block (req.contentLen.toNat + 1) = some block) :
    (∃ body last, req.Delivers body ∧
        recvLoop req.totalLen block 0 req.recv = .complete (body ++ [last])) ∨
      (∃ received, req.FailsWith received ∧
        recvLoop req.totalLen block 0 req.recv = .failed received) ∨
      req.Waits ∧ recvLoop req.totalLen block 0 req.recv = .receiving := by
  have htotal : req.totalLen = req.contentLen.toNat := by
    rw [HttpdReq.totalLen_eq, if_pos (by omega)]
  obtain ⟨mid, last, rfl, hmid⟩ := Sdk.block_succ hb
  have hcur : (([] : List UInt8).length + mid.length : Nat) = req.contentLen.toNat := by
    rw [List.length_nil, Nat.zero_add, hmid]
  have hfits' : recvFits (([] : List UInt8).length + mid.length : Nat) ([] : List UInt8).length
      req.recv := by
    rw [hcur, ← htotal]
    exact hfits
  obtain ⟨chunks, hne, hcases⟩ := @recvLoop_fits req.recv [] mid [last] hfits'
  rw [hcur, ← htotal] at hcases
  rcases hcases with ⟨hall, ⟨rest, hrest⟩, hrun⟩ | ⟨hpart, r, rest, hrest, hr, hrun⟩ |
    ⟨hpart, hrest, hrun⟩
  · exact .inl ⟨chunks.flatten, last, ⟨by omega, chunks, rest, hne, rfl, hrest⟩, hrun⟩
  · exact .inr (.inl ⟨r.received, ⟨hr, chunks, r, rest, hne, by omega, hrest, rfl⟩, hrun⟩)
  · exact .inr (.inr ⟨⟨chunks, hne, by omega, hrest⟩, hrun⟩)

theorem HttpdReq.Delivers.terminate {req : HttpdReq} {body : List UInt8}
    (hlen : req.contentLen.toNat < 2 ^ 31 - 1) (hd : req.Delivers body) (last : UInt8) :
    terminate (body ++ [last]) req.totalLen = some (body ++ [0]) := by
  rw [HttpdReq.totalLen_eq, if_pos (by omega), hd.1, EspPassthrough.terminate,
    if_pos (Int.natCast_nonneg _), Int.toNat_natCast]
  exact store_append 0

/-- No length makes the size overflow, no write leaves the block, and a loop that
ends normally leaves the body and a null in it. -/
structure ReceivesInBounds (sdk : Sdk) (req : HttpdReq) : Prop where
  no_overflow : (wifiConfigPostHandler sdk req).exit ≠ .fault .signedOverflow
  in_bounds : ∀ block, sdk.block (UInt32.ofInt (req.totalLen + 1)).toNat = some block →
    recvLoop req.totalLen block 0 req.recv ≠ .outOfBounds
  holds_body : ∀ block buf, sdk.block (UInt32.ofInt (req.totalLen + 1)).toNat = some block →
    recvLoop req.totalLen block 0 req.recv = .complete buf →
      ∃ body, req.Delivers body ∧ terminate buf req.totalLen = some (body ++ [0])

theorem no_overflow_of_ne {sdk : Sdk} {req : HttpdReq} (h : req.totalLen ≠ 2 ^ 31 - 1) :
    (wifiConfigPostHandler sdk req).exit ≠ .fault .signedOverflow := by
  unfold wifiConfigPostHandler
  simp only [if_neg h]
  split
  · simp
  · split
    · simp
    · simp
    · simp
    · split <;> simp

theorem receivesInBounds_of_small {sdk : Sdk} {req : HttpdReq}
    (hsmall : req.contentLen.toNat < 2 ^ 31 - 1) (hfits : req.RecvFits) :
    ReceivesInBounds sdk req := by
  have htotal := req.totalLen_eq
  rw [if_pos (by omega)] at htotal
  have hroom : ∀ block, sdk.block (UInt32.ofInt (req.totalLen + 1)).toNat = some block →
      sdk.block (req.contentLen.toNat + 1) = some block := by
    intro block hb
    rw [← hb, req.size_toNat, Nat.mod_eq_of_lt (by omega)]
  refine ⟨no_overflow_of_ne (by omega), ?_, ?_⟩
  · intro block hb
    rcases recvLoop_block hsmall hfits (hroom block hb) with ⟨_, _, _, hrun⟩ | ⟨_, _, hrun⟩ | ⟨_, hrun⟩
    all_goals
      rw [hrun]
      simp
  · intro block buf hb hbuf
    rcases recvLoop_block hsmall hfits (hroom block hb) with ⟨body, last, hd, hrun⟩ | ⟨_, _, hrun⟩ |
      ⟨_, hrun⟩
    · rw [hrun] at hbuf
      cases hbuf
      exact ⟨body, hd, hd.terminate hsmall last⟩
    all_goals
      rw [hrun] at hbuf
      cases hbuf

theorem receivesInBounds_of_no_block {sdk : Sdk} {req : HttpdReq} (hne : req.totalLen ≠ 2 ^ 31 - 1)
    (hnone : sdk.block (UInt32.ofInt (req.totalLen + 1)).toNat = none) : ReceivesInBounds sdk req where
  no_overflow := no_overflow_of_ne hne
  in_bounds := by
    intro block hb
    rw [hnone] at hb
    cases hb
  holds_body := by
    intro block buf hb
    rw [hnone] at hb
    cases hb

/-- A length of -1 gets an empty block, in front of which the null is written. -/
theorem not_receivesInBounds_of_block {sdk : Sdk} {req : HttpdReq} {block : List UInt8}
    (hneg : req.totalLen = -1) (hb : sdk.block 0 = some block) : ¬ReceivesInBounds sdk req := by
  intro h
  have hsize : (UInt32.ofInt (req.totalLen + 1)).toNat = 0 := by
    rw [hneg]
    rfl
  have hdone : recvLoop req.totalLen block 0 req.recv = .complete block :=
    recvLoop_done (by rw [hneg]; decide) _ _
  obtain ⟨body, _, hterm⟩ := h.holds_body block block (by rw [hsize, hb]) hdone
  rw [EspPassthrough.terminate, hneg, if_neg (by decide)] at hterm
  cases hterm

theorem reception_in_bounds_iff {sdk : Sdk} {req : HttpdReq}
    (hm : ∀ n, 2 ^ 31 ≤ n → sdk.malloc n = none) (hfits : req.RecvFits) :
    ReceivesInBounds sdk req ↔ req.contentLen.toNat ≠ 2 ^ 31 - 1 ∧
      (req.contentLen.toNat = 2 ^ 32 - 1 → sdk.malloc 0 = none) := by
  have htotal := req.totalLen_eq
  have hlt : req.contentLen.toNat < 2 ^ 32 := req.contentLen.toNat_lt
  constructor
  · intro h
    constructor
    · intro hmax
      rw [if_pos (by omega), hmax] at htotal
      apply h.no_overflow
      rw [wifiConfigPostHandler, htotal]
      rfl
    · intro hmax
      rw [if_neg (by omega), hmax] at htotal
      by_contra hsome
      obtain ⟨block, hblock⟩ := Option.ne_none_iff_exists'.mp hsome
      have hb : sdk.block 0 = some block.toList := by rw [Sdk.block, hblock, Option.map_some]
      exact not_receivesInBounds_of_block htotal hb h
  · rintro ⟨hmax, hnull⟩
    by_cases hsmall : req.contentLen.toNat < 2 ^ 31 - 1
    · exact receivesInBounds_of_small hsmall hfits
    -- a negative length asks for at least half of the address space, or for nothing
    rw [if_neg (by omega)] at htotal
    apply receivesInBounds_of_no_block (by omega)
    rw [req.size_toNat]
    by_cases htop : req.contentLen.toNat = 2 ^ 32 - 1
    · rw [htop]
      exact congrArg (Option.map _) (hnull htop)
    · rw [Nat.mod_eq_of_lt (by omega), Sdk.block, hm _ (by omega), Option.map_none]

def boundedMalloc : Malloc := fun n => if n < 2 ^ 31 then zeroMalloc n else none

def boundedSdk : Sdk := { standardSdk with malloc := boundedMalloc }

theorem boundedMalloc_large {n : Nat} (h : 2 ^ 31 ≤ n) : boundedMalloc n = none :=
  if_neg (Nat.not_lt.mpr h)

theorem declared_length_overflows :
    (∀ n, 2 ^ 31 ≤ n → boundedSdk.malloc n = none) ∧
      (HttpdReq.mk 2147483647 []).RecvFits ∧
      (wifiConfigPostHandler boundedSdk ⟨2147483647, []⟩).exit = .fault .signedOverflow ∧
      ¬ReceivesInBounds boundedSdk ⟨2147483647, []⟩ ∧
      (HttpdReq.mk 4294967295 []).RecvFits ∧
      (wifiConfigPostHandler boundedSdk ⟨4294967295, []⟩).exit = .fault .outOfBounds ∧
      ¬ReceivesInBounds boundedSdk ⟨4294967295, []⟩ := by
  have hover : (wifiConfigPostHandler boundedSdk ⟨2147483647, []⟩).exit = .fault .signedOverflow := by
    decide +kernel
  exact ⟨fun n => boundedMalloc_large, trivial, hover, fun h => h.no_overflow hover, trivial,
    by decide +kernel, not_receivesInBounds_of_block (by decide) rfl⟩

theorem reception_in_bounds_chunks :
    ReceivesInBounds boundedSdk ⟨5, [.bytes (ascii "ab"), .bytes (ascii "cde"), .error 1]⟩ := by
  have hfits : (HttpdReq.mk 5 [.bytes (ascii "ab"), .bytes (ascii "cde"), .error 1]).RecvFits := by
    simp only [HttpdReq.RecvFits, recvFits]
    decide
  exact (reception_in_bounds_iff (fun n => boundedMalloc_large) hfits).mpr ⟨by decide, by decide⟩

/-- Every way through the handler for a body short enough for its `int`. -/
theorem wifiConfigPostHandler_cases {sdk : Sdk} {req : HttpdReq}
    (hlen : req.contentLen.toNat < 2 ^ 31 - 1) (hfits : req.RecvFits) :
    ∃ size, (sdk.malloc (req.contentLen.toNat + 1) = none ∧
        wifiConfigPostHandler sdk req = ⟨[.malloc size false, .send500], .espFail⟩) ∨
      (sdk.malloc (req.contentLen.toNat + 1)).isSome ∧
        ((∃ body, req.Delivers body ∧ ∀ calls, respond sdk (body ++ [0]) = some calls →
            wifiConfigPostHandler sdk req = ⟨.malloc size true :: calls ++ [.free], .espOk⟩) ∨
          (∃ received, req.FailsWith received ∧ wifiConfigPostHandler sdk req =
            ⟨.malloc size true :: (if received = httpdSockErrTimeout then [.send408] else []) ++
              [.free], .espFail⟩) ∨
          req.Waits ∧ wifiConfigPostHandler sdk req = ⟨[.malloc size true], .receiving⟩) := by
  have htotal := req.totalLen_eq
  rw [if_pos (by omega)] at htotal
  have hmax : req.totalLen ≠ 2 ^ 31 - 1 := by omega
  have hsize : (UInt32.ofInt (req.totalLen + 1)).toNat = req.contentLen.toNat + 1 := by
    rw [req.size_toNat, Nat.mod_eq_of_lt (by omega)]
  refine ⟨UInt32.ofInt (req.totalLen + 1), ?_⟩
  cases hm : sdk.malloc (req.contentLen.toNat + 1) with
  | none =>
    have hb : sdk.block (UInt32.ofInt (req.totalLen + 1)).toNat = none := by
      rw [hsize, Sdk.block, hm, Option.map_none]
    refine .inl ⟨rfl, ?_⟩
    unfold wifiConfigPostHandler
    simp only [if_neg hmax, hb]
  | some block =>
    have hroom : sdk.block (req.contentLen.toNat + 1) = some block.toList := by
      rw [Sdk.block, hm, Option.map_some]
    have hloop := recvLoop_block hlen hfits hroom
    have hb : sdk.block (UInt32.ofInt (req.totalLen + 1)).toNat = some block.toList := by
      rw [hsize]
      exact hroom
    refine .inr ⟨rfl, ?_⟩
    unfold wifiConfigPostHandler
    rcases hloop with ⟨body, last, hd, hrun⟩ | ⟨received, hfail, hrun⟩ | ⟨hwait, hrun⟩
    · refine .inl ⟨body, hd, fun calls hcalls => ?_⟩
      simp only [if_neg hmax, hb, hrun, hd.terminate hlen last, Option.bind_some, hcalls]
    · refine .inr (.inl ⟨received, hfail, ?_⟩)
      simp only [if_neg hmax, hb, hrun]
    · refine .inr (.inr ⟨hwait, ?_⟩)
      simp only [if_neg hmax, hb, hrun]

def PostCall.isResponse : PostCall → Bool
  | .send500 | .send408 | .send _ => true
  | _ => false

def PostRun.responses (r : PostRun) : Nat := r.calls.countP (·.isResponse)

/-- What a run of the handler on `req` leaves behind, whichever way it goes. The run
is not over while a call of `httpd_req_recv` has not returned. -/
structure LeavesClean (sdk : Sdk) (req : HttpdReq) (r : PostRun) : Prop where
  no_fault : ∀ f, r.exit ≠ .fault f
  unchanged : successText ∉ r.texts →
    (∀ cfg, .setConfig cfg ∉ r.calls) ∧ .resetRetryNum ∉ r.calls ∧ .connect ∉ r.calls
  freed : r.exit ≠ .receiving → (sdk.malloc (req.contentLen.toNat + 1)).isSome →
    ∃ calls, r.calls = calls ++ [.free] ∧ .free ∉ calls
  not_freed : r.exit = .receiving ∨ sdk.malloc (req.contentLen.toNat + 1) = none → .free ∉ r.calls
  one_response : r.responses ≤ 1
  no_response : r.responses = 0 → (r.exit = .receiving ∧ req.Waits) ∨
    ∃ received, req.FailsWith received ∧ received ≠ httpdSockErrTimeout

theorem rejected_post_changes_nothing {sdk : Sdk} {req : HttpdReq} (hq : sdk.FindsValues)
    (hlen : req.contentLen.toNat < 2 ^ 31 - 1) (hfits : req.RecvFits) :
    LeavesClean sdk req (wifiConfigPostHandler sdk req) := by
  obtain ⟨size, ⟨hm, hrun⟩ | ⟨hm, hcases⟩⟩ := @wifiConfigPostHandler_cases sdk req hlen hfits
  · rw [hrun]
    refine ⟨by simp, by simp, by simp [hm], by simp, le_refl 1, ?_⟩
    intro h
    cases h
  have hsome : sdk.malloc (req.contentLen.toNat + 1) ≠ none := Option.isSome_iff_ne_none.mp hm
  rcases hcases with ⟨body, _, hrun⟩ | ⟨received, hfail, hrun⟩ | ⟨hwait, hrun⟩
  · rcases respond_cases hq (body ++ [0]) with hr | ⟨v, w, set, mac, _, _, hr⟩
    · rw [hrun _ hr]
      refine ⟨by simp, by simp, fun _ _ => ⟨_, rfl, by simp⟩, by simp [hsome], le_refl 1, ?_⟩
      intro h
      cases h
    · rw [hrun _ hr]
      refine ⟨by simp, ?_, fun _ _ => ⟨_, rfl, by simp⟩, by simp [hsome], le_refl 1, ?_⟩
      · intro h
        exact absurd (List.mem_singleton_self successText) h
      · intro h
        cases h
  · rw [hrun]
    by_cases ht : received = httpdSockErrTimeout
    · rw [if_pos ht]
      refine ⟨by simp, by simp, fun _ _ => ⟨_, rfl, by simp⟩, by simp [hsome], le_refl 1, ?_⟩
      intro h
      cases h
    · rw [if_neg ht]
      exact ⟨by simp, by simp, fun _ _ => ⟨_, rfl, by simp⟩, by simp [hsome], Nat.zero_le _,
        fun _ => .inr ⟨received, hfail, ht⟩⟩
  · rw [hrun]
    exact ⟨by simp, by simp, fun h => absurd rfl h, by simp, Nat.zero_le _, fun _ => .inl ⟨rfl, hwait⟩⟩

theorem rejected_post_changes_nothing_timeout :
    let req : HttpdReq := ⟨5, [.bytes (ascii "ss"), .error 3]⟩
    LeavesClean standardSdk req (wifiConfigPostHandler standardSdk req) := by
  have hfits : (HttpdReq.mk 5 [.bytes (ascii "ss"), .error 3]).RecvFits := by
    simp only [HttpdReq.RecvFits, recvFits]
    decide
  exact rejected_post_changes_nothing standardSdk_findsValues (by decide) hfits

end EspPassthrough
