import EspPassthrough.Provisioning

/-! The choice `wifi_init_softap_sta` makes at boot, and what it logs about it. -/

namespace EspPassthrough

open CText FormEncoding

inductive WifiMode where
  | sta
  | apSta
  deriving DecidableEq

structure WifiApConfig where
  ssid : List UInt8
  password : List UInt8
  maxConnection : Nat
  authmode : Nat
  channel : Nat
  deriving DecidableEq

inductive BootCall where
  | log (text : List UInt8)
  | setMode (mode : WifiMode)
  | setApConfig (cfg : WifiApConfig)
  | start
  | connect
  | startWebserver
  deriving DecidableEq

def wifiAuthOpen : Nat := 0

/-- `%s` of a field reads on into the next one where no null ends it; `after` is
the memory behind the password. -/
def ssidText (cfg : WifiStaConfig) (after : List UInt8) : List UInt8 :=
  cstr (cfg.ssid.toList ++ (cfg.password.toList ++ after))

/-- `cfg` is what `esp_wifi_get_config` finds in NVS. -/
def wifiInitSoftapSta (cfg : WifiStaConfig) (after : List UInt8) : List BootCall :=
  if cfg.ssid[0] ≠ 0 then
    [.log (ascii "NVS config found (SSID: " ++ ssidText cfg after ++
        ascii "). Starting in STA Mode."),
      .setMode .sta, .start, .connect]
  else
    [.log (ascii "No NVS config. Starting AP+STA for Provisioning."), .setMode .apSta,
      .setApConfig ⟨ascii "ESP8266_Config", [], 4, wifiAuthOpen, 1⟩, .start, .startWebserver]

/-- What `wifi_init_softap_sta` takes for a configuration in flash. -/
def WifiStaConfig.Named (cfg : WifiStaConfig) : Prop := cfg.ssid[0] ≠ 0

instance (cfg : WifiStaConfig) : Decidable cfg.Named :=
  inferInstanceAs (Decidable (cfg.ssid[0] ≠ 0))

def bootLog (cfg : WifiStaConfig) (after : List UInt8) : List (List UInt8) :=
  (wifiInitSoftapSta cfg after).filterMap fun | .log text => some text | _ => none

theorem ssidText_of_lt {cfg : WifiStaConfig} (h : (cstr cfg.ssid.toList).length < 32)
    (after : List UInt8) : ssidText cfg after = cstr cfg.ssid.toList := by
  have hmem : 0 ∈ cfg.ssid.toList := by
    by_contra hno
    have hself := cstr_eq_self fun c hc (h0 : c = 0) => hno (h0 ▸ hc)
    rw [hself, Vector.length_toList] at h
    omega
  exact cstr_append_of_mem hmem _

theorem ssidText_inj {cfg₁ cfg₂ : WifiStaConfig} {w₁ w₂ after₁ after₂ : List UInt8}
    (hssid : cfg₁.ssid = cfg₂.ssid) (hlen : 32 ≤ (cstr cfg₁.ssid.toList).length)
    (h₁ : cfg₁.password = strncpy 64 w₁) (h₂ : cfg₂.password = strncpy 64 w₂)
    (h : ssidText cfg₁ after₁ = ssidText cfg₂ after₂) : cfg₁.password = cfg₂.password := by
  have hnull : ∀ c ∈ cfg₁.ssid.toList, c ≠ 0 := by
    have hself : cstr cfg₁.ssid.toList = cfg₁.ssid.toList :=
      (List.takeWhile_prefix _).eq_of_length_le (by rw [Vector.length_toList]; exact hlen)
    exact cstr_eq_self_iff.mp hself
  rw [ssidText, ssidText, ← hssid, cstr_append hnull, cstr_append hnull] at h
  have hpad := congrArg (padZero 64) (List.append_cancel_left h)
  rw [h₁, h₂, strncpy_toList, strncpy_toList, padZero_cstr_append (cstr_no_null w₁),
    padZero_cstr_append (cstr_no_null w₂)] at hpad
  rw [h₁, h₂]
  exact Vector.toList_inj.mp hpad

theorem bootLog_eq_iff {cfg₁ cfg₂ : WifiStaConfig} (hssid : cfg₁.ssid = cfg₂.ssid)
    (hne : cfg₁.ssid[0] ≠ 0) (after₁ after₂ : List UInt8) :
    bootLog cfg₁ after₁ = bootLog cfg₂ after₂ ↔ ssidText cfg₁ after₁ = ssidText cfg₂ after₂ := by
  have hne₂ : cfg₂.ssid[0] ≠ 0 := by rwa [← hssid]
  have hlog : ∀ (cfg : WifiStaConfig) (after : List UInt8), cfg.ssid[0] ≠ 0 → bootLog cfg after =
      [ascii "NVS config found (SSID: " ++ ssidText cfg after ++ ascii "). Starting in STA Mode."] := by
    intro cfg after h
    rw [bootLog, wifiInitSoftapSta, if_pos h]
    rfl
  rw [hlog _ _ hne, hlog _ _ hne₂]
  constructor
  · intro h
    exact List.append_cancel_left (List.append_cancel_right (List.head_eq_of_cons_eq h))
  · intro h
    rw [h]

/-- The boot log of two stored configurations that differ in the password alone
is the same exactly when their common name leaves room for its null. -/
theorem boot_log_hides_password_iff {sdk₁ sdk₂ : Sdk} {req₁ req₂ : HttpdReq}
    {cfg₁ cfg₂ : WifiStaConfig} (hq₁ : sdk₁.FindsValues) (hq₂ : sdk₂.FindsValues)
    (h₁ : cfg₁ ∈ (wifiConfigPostHandler sdk₁ req₁).configs)
    (h₂ : cfg₂ ∈ (wifiConfigPostHandler sdk₂ req₂).configs) (hssid : cfg₁.ssid = cfg₂.ssid)
    (hne : cfg₁.ssid[0] ≠ 0) (hpassword : cfg₁.password ≠ cfg₂.password)
    (after₁ after₂ : List UInt8) :
    bootLog cfg₁ after₁ = bootLog cfg₂ after₂ ↔ (cstr cfg₁.ssid.toList).length < 32 := by
  rw [bootLog_eq_iff hssid hne]
  constructor
  · intro h
    by_contra hlen
    obtain ⟨_, w₁, _, hw₁⟩ := configs_strncpy hq₁ h₁
    obtain ⟨_, w₂, _, hw₂⟩ := configs_strncpy hq₂ h₂
    exact hpassword (ssidText_inj hssid (not_lt.mp hlen) hw₁ hw₂ h)
  · intro hlen
    rw [ssidText_of_lt hlen, ssidText_of_lt (by rwa [← hssid]), hssid]

theorem full_ssid_logs_password :
    ∃ req₁ req₂ cfg₁ cfg₂, standardSdk.FindsValues ∧
      cfg₁ ∈ (wifiConfigPostHandler standardSdk req₁).configs ∧
      cfg₂ ∈ (wifiConfigPostHandler standardSdk req₂).configs ∧ cfg₁.ssid = cfg₂.ssid ∧
      cfg₁.ssid[0] ≠ 0 ∧ cfg₁.password ≠ cfg₂.password ∧ bootLog cfg₁ [] ≠ bootLog cfg₂ [] := by
  have hmem : ∀ password ∈ [ascii "secret", ascii "hidden"],
      storedFor (List.replicate 32 97) password ∈ (wifiConfigPostHandler standardSdk
        (.single (pageBody (List.replicate 32 97) password))).configs := by
    intro password hpassword
    rcases List.mem_pair.mp hpassword with rfl | rfl
    · exact storedFor_mem_configs (forall_mem_of_all (by decide)) (by decide)
        (forall_mem_of_all (by decide)) (by decide) (by decide)
    · exact storedFor_mem_configs (forall_mem_of_all (by decide)) (by decide)
        (forall_mem_of_all (by decide)) (by decide) (by decide)
  exact ⟨_, _, _, _, standardSdk_findsValues, hmem _ List.mem_cons_self,
    hmem _ (List.mem_cons_of_mem _ List.mem_cons_self), by decide +kernel⟩

theorem boot_log_hides_password_iff_short :
    bootLog (storedFor (ascii "Home") (ascii "secret")) [] =
      bootLog (storedFor (ascii "Home") (ascii "hidden")) [] := by
  have h₁ := @storedFor_mem_configs (ascii "Home") (ascii "secret") (forall_mem_of_all (by decide))
    (by decide) (forall_mem_of_all (by decide)) (by decide) (by decide)
  have h₂ := @storedFor_mem_configs (ascii "Home") (ascii "hidden") (forall_mem_of_all (by decide))
    (by decide) (forall_mem_of_all (by decide)) (by decide) (by decide)
  exact (boot_log_hides_password_iff standardSdk_findsValues standardSdk_findsValues h₁ h₂ rfl
    (by decide) (by decide) [] []).mpr (by decide)

end EspPassthrough
