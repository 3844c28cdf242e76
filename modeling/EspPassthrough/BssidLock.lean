import EspPassthrough.Provisioning
import EspPassthrough.MacFormat
import EspPassthrough.ScanJson

/-! Requests that ask for the BSSID lock, whatever they give for the address. -/

namespace EspPassthrough

open CText FormEncoding

/-- The configuration is locked to the address read from the decoded value as the
buffer of twenty bytes holds it, or there is none and no attempt to connect. -/
def LockKept (r : PostRun) (body : List UInt8) : Prop :=
  (∃ cfg e, r.configs = [cfg] ∧ cfg.bssidSet = true ∧
    rawValue (cstr body) (ascii "bssid") = some e ∧
    parseMacAddress ((percentDecode e).take 19) (Vector.replicate 6 0) = (true, cfg.bssid)) ∨
  (r.configs = [] ∧ .connect ∉ r.calls)

theorem storable_of_provisions {sdk : Sdk} {req : HttpdReq} {body : List UInt8} {call : PostCall}
    (hq : sdk.FindsValues) (hd : req.Delivers body) (hp : call.provisions = true)
    (hcall : call ∈ (wifiConfigPostHandler sdk req).calls) : Storable sdk body := by
  obtain ⟨hlen, hm, calls, hr, hmem⟩ := respond_of_provisions hp hd hcall
  rcases respond_cases hq (body ++ [0]) with hfail | ⟨v, w, _, _, hv, hw, _⟩
  · obtain rfl := Option.some.inj (hfail.symm.trans hr)
    obtain rfl := List.mem_singleton.mp hmem
    cases hp
  · rw [cstr_append_null] at hv hw
    exact ⟨hlen, hm, ⟨v, hv⟩, w, hw⟩

theorem lockKept_of_not_storable {sdk : Sdk} {req : HttpdReq} {body : List UInt8}
    (hq : sdk.FindsValues) (hd : req.Delivers body) (hs : ¬Storable sdk body) :
    LockKept (wifiConfigPostHandler sdk req) body := by
  refine .inr ⟨?_, fun hconnect => hs (storable_of_provisions hq hd rfl hconnect)⟩
  rw [List.eq_nil_iff_forall_not_mem]
  intro cfg hcfg
  exact hs (storable_of_provisions hq hd rfl (PostRun.mem_configs.mp hcfg))

/-- A request for the lock is honoured or refused exactly when, if its body is one
that is stored, there is an address to lock to. -/
theorem lock_kept_iff {sdk : Sdk} {req : HttpdReq} {body : List UInt8} (hq : sdk.FindsValues)
    (hd : req.Delivers body)
    (hon : rawValue (cstr body) (ascii "bssid_enable") = some (ascii "on")) :
    LockKept (wifiConfigPostHandler sdk req) body ↔ (Storable sdk body →
      ∃ e, rawValue (cstr body) (ascii "bssid") = some e ∧ e.length < 64 ∧
        HexGroups 5 (cstr ((percentDecode e).take 19))) := by
  by_cases hs : Storable sdk body
  swap
  · exact iff_of_true (lockKept_of_not_storable hq hd hs) fun h => absurd h hs
  obtain ⟨ssid, password, hcfgs⟩ := configs_of_lock hq hd hs hon
  constructor
  · -- whatever the address, something is stored, so it must be the locked configuration
    rintro (⟨cfg, e, hcfg, hset, he, hparse⟩ | ⟨hnone, _⟩) _
    · refine ⟨e, he, ?_, parseMacAddress_iff.mp (congrArg Prod.fst hparse)⟩
      by_contra hlong
      rw [he, Option.filter_some_neg (by simpa using hlong)] at hcfgs
      obtain rfl := List.head_eq_of_cons_eq (hcfg.symm.trans hcfgs)
      cases hset
    · rw [hnone] at hcfgs
      cases hcfgs
  · intro h
    obtain ⟨e, he, hlen, hgroups⟩ := h hs
    have hparse := (@parseMacAddress_iff _ (Vector.replicate 6 0)).mpr hgroups
    rw [he, Option.filter_some_pos (by simpa using hlen)] at hcfgs
    exact .inl ⟨_, e, hcfgs, by simp only [withLock, hparse, Bool.true_or], he, Prod.ext hparse rfl⟩

theorem empty_bssid_stored_unlocked :
    ∃ body cfg, (HttpdReq.single body).Delivers body ∧ standardSdk.FindsValues ∧
      rawValue (cstr body) (ascii "bssid_enable") = some (ascii "on") ∧
      rawValue (cstr body) (ascii "bssid") = some [] ∧
      (wifiConfigPostHandler standardSdk (.single body)).configs = [cfg] ∧ cfg.bssidSet = false ∧
      .connect ∈ (wifiConfigPostHandler standardSdk (.single body)).calls ∧
      ¬LockKept (wifiConfigPostHandler standardSdk (.single body)) body := by
  let body := lockBody (ascii "Home") (ascii "secret") []
  have hd : (HttpdReq.single body).Delivers body :=
    HttpdReq.single_delivers (by decide +kernel) (by decide +kernel)
  have hcfgs : (wifiConfigPostHandler standardSdk (.single body)).configs =
    [storedFor (ascii "Home") (ascii "secret")] := by decide +kernel
  refine ⟨body, _, hd, standardSdk_findsValues, by decide +kernel, by decide +kernel, hcfgs, rfl,
    by decide +kernel, ?_⟩
  rintro (⟨cfg, e, hcfg, hset, _⟩ | ⟨hnone, _⟩)
  · obtain rfl := List.head_eq_of_cons_eq (hcfg.symm.trans hcfgs)
    cases hset
  · rw [hnone] at hcfgs
    cases hcfgs

theorem lock_kept_iff_colons :
    LockKept (wifiConfigPostHandler standardSdk (.single (lockBody (ascii "Home") (ascii "secret")
      (ascii "aa%3ABB:0c:dD:ee:ff")))) (lockBody (ascii "Home") (ascii "secret")
        (ascii "aa%3ABB:0c:dD:ee:ff")) := by
  have hd := @HttpdReq.single_delivers (lockBody (ascii "Home") (ascii "secret")
    (ascii "aa%3ABB:0c:dD:ee:ff")) (by decide +kernel) (by decide +kernel)
  refine (lock_kept_iff standardSdk_findsValues hd (by decide +kernel)).mpr fun _ =>
    ⟨ascii "aa%3ABB:0c:dD:ee:ff", by decide +kernel, by decide, ?_⟩
  exact (@parseMacAddress_iff _ (Vector.replicate 6 0)).mp (by decide +kernel)

theorem macText_no_hyphen (m : Vector UInt8 6) : 45 ∉ macText m := by
  intro h
  rcases mem_of_mem_intercalate h with hsep | ⟨l, hl, hcl⟩
  · exact absurd hsep (by decide)
  · obtain ⟨b, _, rfl⟩ := List.mem_map.mp hl
    exact absurd (formatByte_chars b 45 hcl) (by decide)

/-- A scanned address comes back from the form, however it was escaped. -/
theorem scanned_bssid_survives {sdk : Sdk} {req : HttpdReq} {body ev : List UInt8}
    (m : Vector UInt8 6) (hq : sdk.FindsValues) (hd : req.Delivers body) (hs : Storable sdk body)
    (hon : rawValue (cstr body) (ascii "bssid_enable") = some (ascii "on"))
    (hb : rawValue (cstr body) (ascii "bssid") = some ev) (hev : Encodes (macText m) ev) :
    ∃ cfg, (wifiConfigPostHandler sdk req).configs = [cfg] ∧ cfg.bssidSet = true ∧
      cfg.bssid = m := by
  obtain ⟨hregex, hbytes⟩ := macText_denotes m
  obtain ⟨hset, hval⟩ := (parseMacAddress_of_macRegex hregex [] (Vector.replicate 6 0)).1
    (macText_no_hyphen m)
  rw [parseMacAddress_append_null] at hset hval
  obtain ⟨ssid, password, hcfgs⟩ := configs_of_lock hq hd hs hon
  rw [hb, withLock_encodes hev (by rw [macText_length]; decide)] at hcfgs
  refine ⟨_, hcfgs, by rw [hset]; rfl, ?_⟩
  rw [← Vector.toList_inj]
  exact hval.trans hbytes

theorem scanned_bssid_survives_escaped :
    ∃ cfg, (wifiConfigPostHandler standardSdk (.single (lockBody (ascii "Home") (ascii "secret")
        (ascii "0%30%3a0a%3A0b%3Acc%3Add%3Aff")))).configs = [cfg] ∧ cfg.bssidSet = true ∧
      cfg.bssid = #v[0, 10, 11, 0xcc, 0xdd, 0xff] := by
  have hd := @HttpdReq.single_delivers (lockBody (ascii "Home") (ascii "secret")
    (ascii "0%30%3a0a%3A0b%3Acc%3Add%3Aff")) (by decide +kernel) (by decide +kernel)
  have hev : Encodes (macText #v[0, 10, 11, 0xcc, 0xdd, 0xff])
      (ascii "0%30%3a0a%3A0b%3Acc%3Add%3Aff") :=
    .literal (by decide) (by decide) (by decide)
      (@Encodes.escape 51 48 _ _ (by decide) (by decide) (by decide)
        (@Encodes.escape 51 97 _ _ (by decide) (by decide) (by decide)
          (@formEncode_encodes (ascii "0a:0b:cc:dd:ff") (forall_mem_of_all (by decide)))))
  exact scanned_bssid_survives _ standardSdk_findsValues hd
    ⟨by decide +kernel, rfl, ⟨ascii "Home", by decide +kernel, by decide⟩, ascii "secret",
      by decide +kernel, by decide⟩ (by decide +kernel) (by decide +kernel) hev

end EspPassthrough
