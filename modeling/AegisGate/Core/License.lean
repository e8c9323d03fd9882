import Mathlib.Data.Finset.Basic
import Mathlib.Data.List.DropRight
import Mathlib.Data.List.Sort
import AegisGate.Core.Json
import AegisGate.Lib.Separator

/-!
# Licenses

`src/core/feature_gate.cpp`: reading a license file, checking it and enabling features.

* `buildLicensePayload`  the string that is signed;
* `IssuedLicense`  what the vendor signs: any customer and date, a non-empty feature list;
* `GrantsOnlySigned`  the file enables what some issued license names, however the vendor
  issued, as long as the file carries no forgery;
* `namedFeatures`  the features that a payload was signed for, if it can have been signed.

Signature verification, SHA-256 and the date arithmetic come in through `LicenseEnv`.
-/

namespace AegisGate.License

open List

inductive Feature where
  | advancedRouting
  | customRules
  | webManagement
  | clusterDeployment
  | rbac
  | sso
  | complianceReport
  | alerting
  | pluginSystem
  | agentOrchestration
  | ragPipeline
  deriving DecidableEq, Repr

def featureToString : Feature → String
  | .advancedRouting => "advanced_routing"
  | .customRules => "custom_rules"
  | .webManagement => "web_management"
  | .clusterDeployment => "cluster_deployment"
  | .rbac => "rbac"
  | .sso => "sso"
  | .complianceReport => "compliance_report"
  | .alerting => "alerting"
  | .pluginSystem => "plugin_system"
  | .agentOrchestration => "agent_orchestration"
  | .ragPipeline => "rag_pipeline"

def allFeatures : List Feature :=
  [.advancedRouting, .customRules, .webManagement, .clusterDeployment, .rbac, .sso,
    .complianceReport, .alerting, .pluginSystem, .agentOrchestration, .ragPipeline]

def featureFromString (s : String) : Option Feature :=
  allFeatures.find? (fun f => decide (featureToString f = s))

def autoEnable (dependent dependency : Feature) (enabled : Finset Feature) : Finset Feature :=
  if dependent ∈ enabled then insert dependency enabled else enabled

def resolveDependencies (enabled : Finset Feature) : Finset Feature :=
  autoEnable .complianceReport .rbac (autoEnable .sso .rbac (autoEnable .webManagement .rbac enabled))

/-! ## payloads -/

def LICENSE_SALT : String := "aegisgate-v1-f7e2a9c4d1b8"

def featStr (sorted : List String) : String :=
  String.ofList ([','].intercalate (sorted.map String.toList))

def buildLicensePayload (edition customer expires : String) (features : List String) : String :=
  edition ++ ":" ++ customer ++ ":" ++ expires ++
    (if features = [] then "" else ":" ++ featStr (features.insertionSort (· ≤ ·)))

/-! ## checking a file -/

structure LicenseEnv where
  /-- payload, signature and public key, the last two in base64 -/
  verify : String → String → String → Bool
  sha256Hex : String → String
  /-- `get_time` with `%Y-%m-%d`, then `mktime` -/
  parseDate : String → Option Int
  now : Int

def isExpired (env : LicenseEnv) (expires : String) : Bool :=
  match env.parseDate expires with
  | none => true
  | some expiry => decide (expiry < env.now)

def validateEd25519Signature (env : LicenseEnv) (payload signature publicKey : String) : Bool :=
  if signature = "" ∨ publicKey = "" then false else env.verify payload signature publicKey

/-- the last sixteen bytes of the key against the first sixteen hex digits of the digest -/
def validateLicenseKey (env : LicenseEnv) (edition customer expires licenseKey : String)
    (features : List String) : Bool :=
  let key := licenseKey.toUTF8.data.toList
  if key.length < 16 then false
  else
    let payload := buildLicensePayload edition customer expires features
    let fullHash := (env.sha256Hex (payload ++ LICENSE_SALT)).toUTF8.data.toList
    decide (fullHash.take 16 = key.drop (key.length - 16))

structure LicenseFile where
  edition : String := ""
  customer : String := ""
  expires : String := ""
  licenseKey : String := ""
  features : Option (List String) := none
  signature : String := ""
  publicKey : String := ""
  deriving DecidableEq

open LicenseFile

/-- `get<std::vector<std::string>>()` -/
def getStrings : Json → Except Json.TypeError (List String)
  | .arr l => l.mapM fun
    | .str s => .ok s
    | _ => .error ⟨302⟩
  | _ => .error ⟨302⟩

def readLicense (j : Json) : Except Json.TypeError LicenseFile := do
  let edition ← j.valueStr "edition" ""
  let customer ← j.valueStr "customer" ""
  let expires ← j.valueStr "expires" ""
  let licenseKey ← j.valueStr "license_key" ""
  let features ← (j.find? "features").mapM getStrings
  let signature ← j.valueStr "signature" ""
  let publicKey ← j.valueStr "public_key" ""
  pure ⟨edition, customer, expires, licenseKey, features, signature, publicKey⟩

namespace LicenseFile

variable (f : LicenseFile)

def featureStrings : List String := f.features.getD []

def payload : String :=
  buildLicensePayload f.edition f.customer f.expires f.featureStrings

/-- the signature decides, not the checksum -/
def signed : Bool := f.signature != "" && f.publicKey != ""

def sigValid (env : LicenseEnv) (f : LicenseFile) : Bool :=
  if f.signed then validateEd25519Signature env f.payload f.signature f.publicKey
  else validateLicenseKey env f.edition f.customer f.expires f.licenseKey f.featureStrings

def accepted (env : LicenseEnv) (f : LicenseFile) : Bool :=
  f.edition == "enterprise" && f.sigValid env && !isExpired env f.expires

/-- what the `features` field asks for; a missing field asks for everything -/
def requested : Finset Feature :=
  match f.features with
  | none => allFeatures.toFinset
  | some fs => resolveDependencies (fs.filterMap featureFromString).toFinset

end LicenseFile

/-- the features enabled by a license file, `none` for Community; a file that does not parse or has
a field of the wrong type is rejected -/
def parseLicenseJson (env : LicenseEnv) (j : Json) : Option (Finset Feature) :=
  match readLicense j with
  | .error _ => none
  | .ok f => if f.accepted env then some f.requested else none

/-! ## what was issued -/

structure IssuedLicense where
  customer : String
  expires : String
  features : List Feature
  features_ne : features ≠ []

namespace IssuedLicense

def payload (l : IssuedLicense) : String :=
  buildLicensePayload "enterprise" l.customer l.expires (l.features.map featureToString)

def closure (l : IssuedLicense) : Finset Feature := resolveDependencies l.features.toFinset

end IssuedLicense

section
variable {env : LicenseEnv} {j : Json} {f : LicenseFile}

/-- a check that passes under the vendor's key, or by checksum, passes for an issued payload -/
def NotForged (env : LicenseEnv) (vendorKey : String) (issued : Set IssuedLicense)
    (f : LicenseFile) : Prop :=
  f.sigValid env → (f.signed → f.publicKey = vendorKey) → ∃ l ∈ issued, l.payload = f.payload

def GrantsOnlySigned (env : LicenseEnv) (vendorKey : String) (j : Json) : Prop :=
  ∀ issued : Set IssuedLicense, (∀ f, readLicense j = .ok f → NotForged env vendorKey issued f) →
      ∀ enabled, parseLicenseJson env j = some enabled → ∃ l ∈ issued, enabled = l.closure

lemma accepted_sigValid (h : f.accepted env) : f.sigValid env := by
  unfold accepted at h
  simp only [Bool.and_eq_true] at h
  exact h.1.2

lemma accepted_edition (h : f.accepted env) : f.edition = "enterprise" := by
  unfold accepted at h
  simp only [Bool.and_eq_true, beq_iff_eq] at h
  exact h.1.1

lemma parseLicenseJson_eq_some {enabled : Finset Feature}
    (h : parseLicenseJson env j = some enabled) :
    ∃ f, readLicense j = .ok f ∧ f.accepted env ∧ enabled = f.requested := by
  unfold parseLicenseJson at h
  split at h
  · cases h
  · next f hf =>
    split at h
    · next ha =>
      cases h
      exact ⟨f, hf, ha, rfl⟩
    · cases h

end

/-! ## the features of a payload -/

/-- the license that a payload can have been signed for: behind two further colons, the last of the
text are names of features, in order -/
def namedFeatures (payload : String) : Option (List Feature) :=
  let body := payload.toList.drop "enterprise:".length
  let names := ((body.rtakeWhile (· != ':')).splitOn ',').map String.ofList
  if ':' ∈ (body.rdropWhile (· != ':')).dropLast ∧ names.Pairwise (· ≤ ·) then
    names.mapM featureFromString
  else none

section
variable {fs : List Feature} {f : LicenseFile}

lemma cut_last {l : List Char} (h : ':' ∈ l) : ':' ∉ l.rtakeWhile (· != ':') ∧
    l = (l.rdropWhile (· != ':')).dropLast ++ ':' :: l.rtakeWhile (· != ':') := by
  have hnot : ':' ∉ l.rtakeWhile (· != ':') := fun hmem => by
    have himp := mem_rtakeWhile_imp hmem
    simp at himp
  refine ⟨hnot, ?_⟩
  have hjoin := @rdropWhile_append_rtakeWhile _ (· != ':') l
  have hne : l.rdropWhile (· != ':') ≠ [] := by
    intro hnil
    rw [hnil, nil_append] at hjoin
    rw [hjoin] at hnot
    exact hnot h
  have hlast : (l.rdropWhile (· != ':')).getLast hne = ':' := by
    simpa using rdropWhile_last_not (· != ':') l hne
  conv_lhs => rw [← hjoin, ← dropLast_append_getLast hne, hlast]
  simp

lemma mem_intercalate_of {α : Type*} {x sep : α} (ls : List (List α)) (hx : x ≠ sep)
    (h : ∀ l ∈ ls, x ∉ l) : x ∉ [sep].intercalate ls := by
  induction ls with
  | nil => simp
  | cons l ls ih =>
    have hl := h l mem_cons_self
    have ih := ih fun l' hl' => h l' (mem_cons_of_mem l hl')
    cases ls with
    | nil => simpa using hl
    | cons l' ls =>
      simp [hl, hx, ih]

lemma featureFromString_iff {s : String} {g : Feature} :
    featureFromString s = some g ↔ s = featureToString g := by
  constructor
  · intro h
    simpa [eq_comm] using find?_some h
  · rintro rfl
    cases g <;> decide

lemma mapM_featureFromString {names : List String} : ∀ {fs : List Feature},
    names.mapM featureFromString = some fs ↔ names = fs.map featureToString := by
  induction names with
  | nil => intro fs; cases fs <;> simp
  | cons s names ih =>
    intro fs
    cases fs with
    | nil => simp [Option.bind_eq_some_iff]
    | cons g fs => simp [Option.bind_eq_some_iff, ih, featureFromString_iff]

lemma featureToString_plain (g : Feature) :
    ':' ∉ (featureToString g).toList ∧ ',' ∉ (featureToString g).toList := by
  cases g <;> decide

lemma payload_toList (customer expires : String) (h : fs ≠ []) :
    (buildLicensePayload "enterprise" customer expires (fs.map featureToString)).toList =
      "enterprise:".toList ++ ((customer.toList ++ ':' :: expires.toList) ++ ':' ::
        [','].intercalate (((fs.map featureToString).insertionSort (· ≤ ·)).map String.toList)) := by
  have hne : fs.map featureToString ≠ [] := by simpa using h
  unfold buildLicensePayload
  rw [if_neg hne]
  simp [String.toList_append, featStr]

lemma drop_enterprise (body : List Char) :
    ("enterprise:".toList ++ body).drop "enterprise:".length = body := rfl

lemma namedFeatures_payload (l : IssuedLicense) :
    ∃ fs, namedFeatures l.payload = some fs ∧ fs.Perm l.features := by
  let fs := l.features.insertionSort (featureToString · ≤ featureToString ·)
  have hsorted : (l.features.map featureToString).insertionSort (· ≤ ·) = fs.map featureToString :=
    (map_insertionSort _ _ featureToString _ fun _ _ _ _ => Iff.rfl).symm
  have hperm : fs.Perm l.features := perm_insertionSort _ _
  have hplain : ∀ c ∈ (fs.map featureToString).map String.toList, ':' ∉ c ∧ ',' ∉ c := by
    simpa using fun g _ => featureToString_plain g
  have hne : (fs.map featureToString).map String.toList ≠ [] := by
    simpa using fun hnil => l.features_ne (hnil ▸ hperm).nil_eq.symm
  have hcolon : ':' ∉ [','].intercalate ((fs.map featureToString).map String.toList) :=
    mem_intercalate_of _ (by decide) fun c hc => (hplain c hc).1
  have hbody := payload_toList l.customer l.expires l.features_ne
  rw [hsorted] at hbody
  generalize hb : (l.customer.toList ++ ':' :: l.expires.toList) ++ ':' ::
    [','].intercalate ((fs.map featureToString).map String.toList) = body at hbody
  obtain ⟨hnot, hcut⟩ := cut_last (l := body) (by simp [← hb])
  obtain ⟨hbefore, hnames⟩ := Separator.split_last hcolon hnot (hb.trans hcut)
  have hdecoded : (([','].intercalate ((fs.map featureToString).map String.toList)).splitOn ',').map
      String.ofList = fs.map featureToString := by
    rw [splitOn_intercalate ',' (fun c hc => (hplain c hc).2) hne]
    simp
  refine ⟨fs, ?_, hperm⟩
  unfold namedFeatures IssuedLicense.payload
  rw [hbody, drop_enterprise]
  simp only [← hbefore, ← hnames, hdecoded]
  rw [if_pos ⟨by simp, hsorted ▸ pairwise_insertionSort _ _⟩]
  exact mapM_featureFromString.2 rfl

lemma requested_of_names (he : f.edition = "enterprise")
    (hf : f.features = some (fs.map featureToString)) (hne : fs ≠ []) (l : IssuedLicense)
    (hl : l.payload = f.payload) : f.requested = l.closure := by
  have hfp : f.payload = buildLicensePayload "enterprise" f.customer f.expires
      (fs.map featureToString) := by
    simp [payload, featureStrings, he, hf]
  obtain ⟨gs, hgs, hperm⟩ := namedFeatures_payload l
  obtain ⟨gs', hgs', hperm'⟩ := namedFeatures_payload ⟨f.customer, f.expires, fs, hne⟩
  obtain rfl : gs = gs' := Option.some.inj (hgs.symm.trans ((hl.trans hfp) ▸ hgs'))
  have hname : ∀ g, featureFromString (featureToString g) = some g := fun _ =>
    featureFromString_iff.2 rfl
  have hreq : f.requested = resolveDependencies fs.toFinset := by
    simp [requested, hf, filterMap_map, hname]
  rw [hreq, IssuedLicense.closure, toFinset_eq_of_perm _ _ (hperm'.symm.trans hperm)]

/-- such a file, checked under the vendor's key, gains nothing by any edit -/
theorem named_file_grants_only_signed (env : LicenseEnv) (vendorKey : String) (j : Json)
    (hf : readLicense j = .ok f) (hfs : f.features = some (fs.map featureToString))
    (hne : fs ≠ []) (hkey : f.signed → f.publicKey = vendorKey) :
    GrantsOnlySigned env vendorKey j := by
  intro issued hnf enabled hparse
  obtain ⟨f', hf', ha, rfl⟩ := parseLicenseJson_eq_some hparse
  cases hf.symm.trans hf'
  obtain ⟨l, hl, hp⟩ := hnf f hf (accepted_sigValid ha) hkey
  exact ⟨l, hl, requested_of_names (accepted_edition ha) hfs hne l hp⟩

end

/-! ## two files that gain features -/

/-- the two signatures above verify, each under its own key; `get_time` stops after the date -/
def sampleEnv : LicenseEnv where
  verify p s k :=
    decide ((p, s, k) = ("enterprise:acme:2099-12-31", "own-signature", "own-key")
      ∨ (p, s, k) = ("enterprise:acme:2099-12-31:rbac", "vendor-signature", "vendor-key"))
  sha256Hex _ := ""
  parseDate s := if "2099-12-31".toList.isPrefixOf s.toList then some 4102358400 else none
  now := 1700000000

def genuineFile : Json :=
  .obj [("edition", .str "enterprise"), ("customer", .str "acme"), ("expires", .str "2099-12-31"),
    ("features", .arr [.str "rbac"]), ("signature", .str "vendor-signature"),
    ("public_key", .str "vendor-key")]

theorem genuine_file_grants : parseLicenseJson sampleEnv genuineFile = some {.rbac} ∧
    GrantsOnlySigned sampleEnv "vendor-key" genuineFile :=
  ⟨by decide, @named_file_grants_only_signed [.rbac] _ sampleEnv "vendor-key" genuineFile rfl rfl
    (by decide) fun _ => rfl⟩

end AegisGate.License
