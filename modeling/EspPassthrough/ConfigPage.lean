import EspPassthrough.BssidLock
import EspPassthrough.ScanBuffer

/-! The page `index_html` of `wifi_prov.c`: its script, from what the user does to the body
that the form posts. A text of the page stands as its UTF-8. -/

namespace EspPassthrough

open CText FormEncoding JsonText

def utf8 (s : String) : List UInt8 := s.toUTF8.toList

/-- The UTF-16 code units of a character, counted at its first byte. -/
def utf16Units (c : UInt8) : Nat := if c < 0x80 then 1 else if c < 0xC0 then 0 else if c < 0xF0 then 1 else 2

def jsLength (s : List UInt8) : Nat := (s.map utf16Units).sum

/-- A network in the answer to `/scan`. -/
structure ApItem where
  ssid : List UInt8
  rssi : Int
  auth : Int
  bssid : List UInt8
  deriving DecidableEq

/-- Of members with the same key the last one counts. -/
def ApItem.ofValue : Value → Option ApItem
  | .object members =>
    match members.reverse.lookup (ascii "ssid"), members.reverse.lookup (ascii "rssi"),
      members.reverse.lookup (ascii "auth"), members.reverse.lookup (ascii "bssid") with
    | some (.string ssid), some (.number rssi 0), some (.number auth 0), some (.string bssid) =>
      some ⟨ssid, rssi, auth, bssid⟩
    | _, _, _, _ => none
  | _ => none

def ApItem.ofRecord (r : WifiApRecord) : ApItem :=
  ⟨r.name, r.rssi.toInt, r.authmode.toInt, macText r.bssid⟩

/-- An entry of `scan_res`, with the address in its dataset. -/
structure PageOption where
  value : List UInt8
  bssid : Option (List UInt8)
  text : List UInt8
  deriving DecidableEq

def getSignalEmoji (rssi : Int) : List UInt8 :=
  if rssi ≥ -55 then utf8 "🟢"
  else if rssi ≥ -75 then utf8 "🟡"
  else if rssi ≥ -85 then utf8 "🟠"
  else utf8 "🔴"

def ApItem.option (ap : ApItem) : PageOption where
  value := ap.ssid
  bssid := some ap.bssid
  text := getSignalEmoji ap.rssi ++ ascii " " ++ ap.ssid ++ ascii " (" ++ formatInt ap.rssi ++
    ascii "dBm) [" ++ ap.bssid ++ ascii "] " ++ if ap.auth = 0 then [] else utf8 "🔒"

def selectNetwork : PageOption := ⟨[], none, ascii "-- Select Network --"⟩

/-- `pending` counts the requests to `/scan` that are under way. -/
structure ConfigPage where
  ssid : List UInt8
  password : List UInt8
  bssid : List UInt8
  bssidEnable : Bool
  bssidShown : Bool
  options : List PageOption
  selectedIndex : Nat
  scanShown : Bool
  scanDisabled : Bool
  scanLabel : List UInt8
  pending : Nat
  deriving DecidableEq

def ConfigPage.fresh : ConfigPage where
  ssid := []
  password := []
  bssid := []
  bssidEnable := false
  bssidShown := false
  options := []
  selectedIndex := 0
  scanShown := false
  scanDisabled := false
  scanLabel := ascii "Scan Networks"
  pending := 0

inductive PageAct where
  | typeSsid (s : List UInt8)
  | typePassword (s : List UInt8)
  | typeBssid (s : List UInt8)
  | clickLock
  | clickScan
  | scanned (data : List ApItem)
  | scanFailed
  | choose (i : Nat)

/-- The text that a field makes of a value set by the script. -/
def fieldText (s : List UInt8) : List UInt8 := s.filter fun c => c ≠ 10 ∧ c ≠ 13

/-- What the user can make of a field; `maxlength` stops an edit that makes a text longer. -/
def Typable (maxLength : Nat) (old s : List UInt8) : Prop :=
  ValidUtf8 s ∧ fieldText s = s ∧ jsLength s ≤ max maxLength (jsLength old)

instance (maxLength : Nat) (old s : List UInt8) : Decidable (Typable maxLength old s) :=
  inferInstanceAs (Decidable (_ ∧ _ ∧ _))

def ConfigPage.toggleAdvanced (p : ConfigPage) : ConfigPage := { p with bssidShown := p.bssidEnable }

def ConfigPage.scanWifi (p : ConfigPage) : ConfigPage :=
  { p with scanDisabled := true, scanLabel := ascii "Scanning...", pending := p.pending + 1 }

def ConfigPage.showScan (p : ConfigPage) (data : List ApItem) : ConfigPage :=
  { p with
    options := selectNetwork :: data.map ApItem.option
    selectedIndex := 0
    scanShown := true
    scanDisabled := false
    scanLabel := ascii "Rescan"
    pending := p.pending - 1 }

def ConfigPage.reportFailure (p : ConfigPage) : ConfigPage :=
  { p with scanDisabled := false, scanLabel := ascii "Scan WiFi", pending := p.pending - 1 }

def ConfigPage.selectWifi (p : ConfigPage) : ConfigPage :=
  match p.options[p.selectedIndex]? with
  | none => p
  | some opt =>
    if opt.value = [] then p
    else
      { p with
        ssid := fieldText opt.value
        bssid :=
          match opt.bssid with
          | some (c :: bssid) => fieldText (c :: bssid)
          | _ => p.bssid }

def ConfigPage.step (p : ConfigPage) : PageAct → Option ConfigPage
  | .typeSsid s => if Typable 32 p.ssid s then some { p with ssid := s } else none
  | .typePassword s => if Typable 63 p.password s then some { p with password := s } else none
  | .typeBssid s => if Typable 17 p.bssid s then some { p with bssid := s } else none
  | .clickLock => some ({ p with bssidEnable := !p.bssidEnable } : ConfigPage).toggleAdvanced
  | .clickScan => if p.scanDisabled then none else some p.scanWifi
  | .scanned data => if p.pending = 0 then none else some (p.showScan data)
  | .scanFailed => if p.pending = 0 then none else some p.reportFailure
  | .choose i =>
    if i < p.options.length ∧ i ≠ p.selectedIndex then
      some ({ p with selectedIndex := i } : ConfigPage).selectWifi
    else none

/-- The form is posted, or an alert shown. -/
def ConfigPage.validateForm (p : ConfigPage) : Except (List UInt8) Unit :=
  if jsLength p.ssid = 0 then .error (ascii "SSID cannot be empty")
  else if jsLength p.ssid > 32 then .error (ascii "SSID too long")
  else if jsLength p.password > 63 then .error (ascii "Password too long")
  else if p.bssidEnable ∧ ¬macRegex p.bssid then .error (ascii "Invalid BSSID")
  else .ok ()

/-- The named fields of the form, in their order; an unchecked box is left out. -/
def ConfigPage.formPairs (p : ConfigPage) : List (List UInt8 × List UInt8) :=
  [(ascii "ssid", formEncode p.ssid), (ascii "password", formEncode p.password)] ++
    (if p.bssidEnable then [(ascii "bssid_enable", ascii "on")] else []) ++
    [(ascii "bssid", formEncode p.bssid)]

def ConfigPage.submit (p : ConfigPage) : Except (List UInt8) (List UInt8) :=
  p.validateForm.map fun _ => formBody p.formPairs

/-! ## Lengths in the page and on the device -/

/-- The continuation bytes that a decoder waits for. -/
def owed : Utf8State → Nat
  | .start => 0
  | .owes1 => 1
  | .owes2 | .owesE0 | .owesED => 2
  | .owes3 | .owesF0 | .owesF4 => 3

theorem utf16Units_le {st st' : Utf8State} {b : UInt8} (h : utf8Step st b = some st') :
    utf16Units b + owed st ≤ 1 + owed st' := by
  have hall : ∀ b, (utf8Step st b).all fun st' => utf16Units b + owed st ≤ 1 + owed st' := by
    cases st <;> exact forall_byte (by decide +kernel)
  have hb := hall b
  rw [h] at hb
  simpa using hb

theorem jsLength_cons (c : UInt8) (s : List UInt8) : jsLength (c :: s) = utf16Units c + jsLength s :=
  rfl

theorem jsLength_le {s : List UInt8} (h : ValidUtf8 s) : jsLength s ≤ s.length := by
  have hrun : ∀ (s : List UInt8) (st : Utf8State), Machine.run utf8Step st s = some .start →
      jsLength s + owed st ≤ s.length := by
    intro s
    induction s with
    | nil =>
      intro st hst
      obtain rfl : st = .start := Option.some.inj hst
      exact le_rfl
    | cons c s ih =>
      intro st hst
      obtain ⟨st', hc, hs⟩ := Option.bind_eq_some_iff.mp hst
      have hunits := utf16Units_le hc
      have hrest := ih st' hs
      rw [jsLength_cons, List.length_cons]
      omega
  exact hrun s .start h

theorem jsLength_pos {c : UInt8} {s : List UInt8} (h : ValidUtf8 (c :: s)) : jsLength (c :: s) ≠ 0 := by
  obtain ⟨st, hc, _⟩ := Option.bind_eq_some_iff.mp h
  have hlead : ∀ b, (utf8Step .start b).isSome → utf16Units b ≠ 0 := forall_byte (by decide +kernel)
  have hunits := hlead c (Option.isSome_of_eq_some hc)
  rw [jsLength_cons]
  omega

theorem fieldText_clean {s : List UInt8} (h : Plain s) : fieldText s = s := by
  rw [fieldText, List.filter_eq_self]
  intro c hc
  have hge := (h c hc).2.2
  simp only [decide_eq_true_eq]
  constructor
  · rintro rfl
    exact absurd hge (by decide)
  · rintro rfl
    exact absurd hge (by decide)

/-! ## What the device makes of the form -/

section

variable {p : ConfigPage} {sdk : Sdk} {req : HttpdReq}

theorem rawValue_formPairs (hssid : ∀ c ∈ p.ssid, c ≠ 0) (hpassword : ∀ c ∈ p.password, c ≠ 0)
    (hbssid : ∀ c ∈ p.bssid, c ≠ 0) (key : List UInt8) :
    rawValue (cstr (formBody p.formPairs ++ [0])) key = p.formPairs.lookup key := by
  have hs := formEncode_sendable hssid
  have hp := formEncode_sendable hpassword
  have hb := formEncode_sendable hbssid
  have hon : 38 ∉ ascii "on" ∧ 0 ∉ ascii "on" := by decide
  refine rawValue_posted ?_ ?_ (by simp [ConfigPage.formPairs]) key
  · have hkeys : ∀ key ∈ [ascii "ssid", ascii "password", ascii "bssid_enable", ascii "bssid"],
      38 ∉ key ∧ 61 ∉ key ∧ 0 ∉ key := by decide
    intro key hkey
    apply hkeys
    by_cases hlock : p.bssidEnable = true
    · simpa [ConfigPage.formPairs, hlock] using hkey
    · have hmem : key = ascii "ssid" ∨ key = ascii "password" ∨ key = ascii "bssid" := by
        simpa [ConfigPage.formPairs, hlock] using hkey
      rcases hmem with rfl | rfl | rfl <;> simp
  · by_cases hlock : p.bssidEnable = true
    · simpa [ConfigPage.formPairs, hlock] using ⟨hs, hp, hon, hb⟩
    · simpa [ConfigPage.formPairs, hlock] using ⟨hs, hp, hb⟩

/-- What the handler stores of a form whose texts fit its buffers. -/
def ConfigPage.stored (p : ConfigPage) : WifiStaConfig :=
  if p.bssidEnable then
    { storedFor p.ssid p.password with
      bssid := (parseMacAddress p.bssid (Vector.replicate 6 0)).2
      bssidSet := (parseMacAddress p.bssid (Vector.replicate 6 0)).1 || false }
  else storedFor p.ssid p.password

theorem ConfigPage.stored_fields (p : ConfigPage) :
    p.stored.ssid = strncpy 32 p.ssid ∧ p.stored.password = strncpy 64 p.password := by
  rw [ConfigPage.stored]
  split <;> exact ⟨rfl, rfl⟩

theorem configs_of_form (hq : sdk.FindsValues)
    (hm : (sdk.malloc ((formBody p.formPairs).length + 1)).isSome)
    (hd : req.Delivers (formBody p.formPairs)) (hlen : (formBody p.formPairs).length < 2 ^ 31 - 1)
    (hssid : ∀ c ∈ p.ssid, c ≠ 0) (hpassword : ∀ c ∈ p.password, c ≠ 0)
    (hbssid : ∀ c ∈ p.bssid, c ≠ 0) (hs : (formEncode p.ssid).length ≤ 127)
    (hp : (formEncode p.password).length ≤ 127) (hb : p.bssidEnable = true → p.bssid.length ≤ 19) :
    (wifiConfigPostHandler sdk req).configs = [p.stored] := by
  have hraw := rawValue_formPairs hssid hpassword hbssid
  have hv : rawValue (cstr (formBody p.formPairs ++ [0])) (ascii "ssid") = some (formEncode p.ssid) :=
    hraw _
  have hw : rawValue (cstr (formBody p.formPairs ++ [0])) (ascii "password") =
    some (formEncode p.password) := hraw _
  have hr := respond_found hq hv (by omega) hw (by omega)
  rw [percentDecode_encodes (formEncode_encodes hssid),
    percentDecode_encodes (formEncode_encodes hpassword)] at hr
  have hlock : lockBssid sdk (cstr (formBody p.formPairs ++ [0])) (storedFor p.ssid p.password) =
      some p.stored := by
    by_cases hon : p.bssidEnable = true
    · have he : rawValue (cstr (formBody p.formPairs ++ [0])) (ascii "bssid_enable") =
          some (ascii "on") := by
        rw [hraw, ConfigPage.formPairs, if_pos hon]
        rfl
      have hb' : rawValue (cstr (formBody p.formPairs ++ [0])) (ascii "bssid") =
          some (formEncode p.bssid) := by
        rw [hraw, ConfigPage.formPairs, if_pos hon]
        rfl
      rw [lockBssid_on hq he, hb', withLock_encodes (formEncode_encodes hbssid) (hb hon),
        ConfigPage.stored, if_pos hon]
      rfl
    · have he : rawValue (cstr (formBody p.formPairs ++ [0])) (ascii "bssid_enable") = none := by
        rw [hraw, ConfigPage.formPairs, if_neg hon]
        rfl
      rw [lockBssid_off hq he, ConfigPage.stored, if_neg hon]
  rw [storedFor] at hlock
  rw [hlock, Option.map_some] at hr
  obtain ⟨size, hrun⟩ := wifiConfigPostHandler_eq hd hlen hm hr
  rw [hrun]
  rfl

end

/-! ## What the page lets through -/

theorem ConfigPage.checked_of_submit {p : ConfigPage} {body : List UInt8} (h : p.submit = .ok body) :
    body = formBody p.formPairs ∧ (p.bssidEnable = true → macRegex p.bssid = true) := by
  rw [ConfigPage.submit, ConfigPage.validateForm] at h
  split at h
  · cases h
  split at h
  · cases h
  split at h
  · cases h
  split at h
  · cases h
  case isFalse hmac =>
    refine ⟨(Except.ok.inj h).symm, fun hlock => ?_⟩
    by_contra hno
    exact hmac ⟨hlock, hno⟩

/-- The box is honoured exactly when the address has no hyphens, which the page admits. -/
theorem stored_lock_iff {p : ConfigPage} (h : p.bssidEnable = true → macRegex p.bssid = true) :
    (p.stored.bssidSet = p.bssidEnable ∧
        (p.bssidEnable = true → p.stored.bssid.toList = macBytes 5 p.bssid)) ↔
      (p.bssidEnable = true → 45 ∉ p.bssid) := by
  by_cases hlock : p.bssidEnable = true
  · obtain ⟨hcolon, hhyphen⟩ := parseMacAddress_of_macRegex (h hlock) [] (Vector.replicate 6 0)
    rw [parseMacAddress_append_null] at hcolon hhyphen
    rw [ConfigPage.stored, if_pos hlock, hlock]
    by_cases h45 : 45 ∈ p.bssid
    · rw [hhyphen h45]
      exact iff_of_false (fun hset => absurd hset.1 (by simp)) fun hno => hno rfl h45
    · obtain ⟨hset, hbytes⟩ := hcolon h45
      exact iff_of_true ⟨by simp [hset], fun _ => hbytes⟩ fun _ => h45
  · rw [ConfigPage.stored, if_neg hlock]
    exact iff_of_true ⟨(Bool.eq_false_iff.mpr hlock).symm, fun hon => absurd hon hlock⟩
      fun hon => absurd hon hlock

/-- A form with the lock on, as the page admits it. -/
def lockedForm : ConfigPage :=
  { ConfigPage.fresh with
    ssid := utf8 "Café"
    password := ascii "secret pass"
    bssid := ascii "0A:1b:2C:3d:4E:5f"
    bssidEnable := true }

theorem lockedForm_submit : lockedForm.submit = .ok (formBody lockedForm.formPairs) := by
  rw [ConfigPage.submit, ConfigPage.validateForm, if_neg (by decide +kernel),
    if_neg (by decide +kernel), if_neg (by decide +kernel), if_neg (by decide +kernel)]
  rfl

end EspPassthrough
