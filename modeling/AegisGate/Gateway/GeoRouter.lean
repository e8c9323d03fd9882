import AegisGate.Gateway.Router

/-!
# Routing by region

`gateway/geo_router.cpp`.  The router infers the region of the client, keeps the models whose
`region:` tags name it, and lets another router choose.

* `inferClientRegion`  headers, then `client_region`, then the client's address, then a default;
* `filterModelsByRegion`  the models of a region;
* `selectModel`  the choice of the base router, replaced under a strict policy when it is
  not one of these;
* `Carries registry r m`  the model `m` has a tag for the region `r`.

Under a strict policy the selected model carries the inferred region (`selectModel_carries`), and
without such a model none is selected (`selectModel_none`).
-/

namespace AegisGate.GeoRouter

open List Json

/-! ## texts and addresses -/

def isSpace (c : Char) : Bool := c = ' ' || (9 ≤ c.toNat && c.toNat ≤ 13)

def toLower (s : String) : String := String.ofList (s.toList.map Char.toLower)

def trim (s : String) : String :=
  String.ofList ((s.toList.dropWhile isSpace).reverse.dropWhile isSpace).reverse

def digits : List Char → Option Nat
  | [] => none
  | cs => if cs.all Char.isDigit then some (cs.foldl (fun n c => n * 10 + (c.toNat - 48)) 0) else none

def octet (piece : List Char) : Option UInt32 :=
  if 3 < piece.length then none
  else
    match digits piece with
    | none => none
    | some v => if 255 < v then none else some (UInt32.ofNat v)

def parseIpv4 (s : String) : Option UInt32 :=
  match (s.toList.splitOn '.').mapM octet with
  | some [a, b, c, d] => some ((a <<< 24) ||| (b <<< 16) ||| (c <<< 8) ||| d)
  | _ => none

/-- `a.b.c.d/n`; anything else contains no address -/
def ipInCidrV4 (ip : UInt32) (cidr : String) : Bool :=
  match cidr.toList.span (· ≠ '/') with
  | (_, []) => false
  | (netStr, _ :: bitsStr) =>
    match parseIpv4 (String.ofList netStr), digits bitsStr with
    | some net, some bits =>
      if 32 < bits then false
      else if bits = 0 then true
      else
        let mask : UInt32 :=
          if bits = 32 then 0xFFFFFFFF else ~~~((1 <<< UInt32.ofNat (32 - bits)) - 1)
        (ip &&& mask) = (net &&& mask)
    | _, _ => false

/-- a text member of an object, and empty for anything else -/
def jsonFieldString (j : Json) (key : String) : String :=
  match j.find? key with
  | some (.str s) => s
  | _ => ""

/-! ## the configuration -/

inductive Affinity where
  | strict
  | prefer
  | any
  deriving DecidableEq, Repr

structure GeoConfig where
  enabled : Bool := false
  affinity : Affinity := .prefer
  defaultClientRegion : String := "us-east"
  headerNames : List String := ["X-AegisGate-Region", "X-Client-Region"]
  /-- networks with their regions -/
  ipRegionMap : List (String × String) := []
  regionAliases : List (String × String) := []

def kRegionTag : String := "region:"

/-- the region of a tag, when it is one for a region -/
def tagRegion (tag : String) : Option String :=
  let p := kRegionTag.toList
  if tag.toList.take p.length = p ∧ p.length < tag.toList.length then
    some (String.ofList (tag.toList.drop p.length))
  else none

def modelRegions (info : ModelInfo) : List String := info.tags.filterMap tagRegion

/-! ## the region of the client -/

section
variable (config : GeoConfig)

def normalizeRegion (region : String) : String :=
  let region := toLower (trim region)
  match config.regionAliases.lookup region with
  | some canonical => toLower (trim canonical)
  | none => region

def lookupRegionByIp (ip : String) : String :=
  match parseIpv4 ip with
  | none => ""
  | some parsed => ((config.ipRegionMap.find? (ipInCidrV4 parsed ·.1)).map (·.2)).getD ""

/-- the first configured header that is there and not empty -/
def headerRegion (extra : Json) : Option String :=
  match extra.find? "headers" with
  | some (.obj l) => (config.headerNames.map (jsonFieldString (.obj l))).find? (· ≠ "")
  | _ => none

def inferClientRegion (ctx : RequestContext) : String :=
  let extra := ctx.chatRequest.extra
  match headerRegion config extra with
  | some v => normalizeRegion config v
  | none =>
    let sdkRegion := jsonFieldString extra "client_region"
    if sdkRegion ≠ "" then normalizeRegion config sdkRegion
    else
      let clientIp := jsonFieldString extra "client_ip"
      let r := if clientIp = "" then "" else lookupRegionByIp config clientIp
      normalizeRegion config (if r ≠ "" then r else config.defaultClientRegion)

def isResidencyStrict (ctx : RequestContext) : Bool :=
  toLower (trim (jsonFieldString ctx.chatRequest.extra "residency")) = "strict"

/-! ## selecting a model -/

/-- models without a region are kept only when nothing is strict -/
def keeps (clientRegion : String) (residencyStrict : Bool) (info : ModelInfo) : Bool :=
  if modelRegions info = [] then !residencyStrict && config.affinity ≠ .strict
  else (modelRegions info).any (fun r => toLower (trim r) = clientRegion)

def filterModelsByRegion (registry : ConnectorRegistry) (clientRegion : String)
    (residencyStrict : Bool) : List String :=
  (registry.allModelInfos.filter (keeps config clientRegion residencyStrict)).map (·.id)

def isAllowed (model : String) (allowed : List String) : Bool := allowed.any (· = model)

def regionOfModel (registry : ConnectorRegistry) (model preferRegion : String) : String :=
  match registry.findModelInfo model with
  | none => ""
  | some info =>
    match modelRegions info with
    | [] => "unknown"
    | r :: rest => if preferRegion ∈ r :: rest then preferRegion else r

def selectModel (base : Option Router) : Router := fun registry ctx =>
  match config.enabled, base with
  | false, some router => router registry ctx
  | false, none => .ok ("", ctx)
  | true, none => .ok ("", ctx)
  | true, some router => do
    let clientRegion := inferClientRegion config ctx
    let ctx ← ctx.setExtra "_geo_client_region" (.str clientRegion)
    let residencyStrict := isResidencyStrict ctx
    let effectiveStrict := residencyStrict || config.affinity = .strict
    let regional := filterModelsByRegion config registry clientRegion residencyStrict
    if regional = [] ∧ effectiveStrict then
      let ctx ← ctx.setExtra "_geo_allowed_models" (.arr [])
      pure ("", ctx)
    else
      let allowed := if regional = [] then registry.allModelInfos.map (·.id) else regional
      let ctx ← ctx.setExtra "_geo_allowed_models" (.arr (allowed.map .str))
      let (picked, ctx) ← router registry ctx
      if picked = "" then pure (picked, ctx)
      else
        let picked :=
          if effectiveStrict && !isAllowed picked allowed then allowed.headD "" else picked
        let ctx ← ctx.setExtra "_geo_selected_region"
          (.str (regionOfModel registry picked clientRegion))
        pure (picked, ctx)

end

/-! ## strict policies -/

def Carries (registry : ConnectorRegistry) (region model : String) : Prop :=
  ∃ info, registry.findModelInfo model = some info ∧
    ∃ r ∈ modelRegions info, toLower (trim r) = region

/-- the policy or the request asks for the region of the client -/
def Strict (config : GeoConfig) (ctx : RequestContext) : Prop :=
  isResidencyStrict ctx ∨ config.affinity = .strict

section
variable {config : GeoConfig} {registry : ConnectorRegistry} {ctx : RequestContext}
  {ctx' : RequestContext} {model : String} {v : Json} {residencyStrict : Bool}

lemma keeps_strict (hstrict : residencyStrict ∨ config.affinity = .strict)
    (region : String) (info : ModelInfo) : keeps config region residencyStrict info ↔
      ∃ r ∈ modelRegions info, toLower (trim r) = region := by
  unfold keeps
  split
  · rename_i hnone
    rw [hnone]
    rcases hstrict with h | h <;> simp [h]
  · simp

lemma mem_filterModelsByRegion (hstrict : residencyStrict ∨ config.affinity = .strict)
    {region : String} : model ∈ filterModelsByRegion config registry region residencyStrict ↔
      Carries registry region model := by
  unfold filterModelsByRegion Carries
  rw [mem_map]
  constructor
  · rintro ⟨info, hinfo, rfl⟩
    obtain ⟨hmem, hkeep⟩ := mem_filter.1 hinfo
    exact ⟨info, Table.find_eq_some_iff.2 ⟨hmem, rfl⟩, (keeps_strict hstrict region info).1 hkeep⟩
  · rintro ⟨info, hfind, hregion⟩
    obtain ⟨hmem, hid⟩ := Table.find_eq_some_iff.1 hfind
    exact ⟨info, mem_filter.2 ⟨hmem, (keeps_strict hstrict region info).2 hregion⟩, hid⟩

instance (registry : ConnectorRegistry) (region model : String) :
    Decidable (Carries registry region model) :=
  decidable_of_iff (model ∈ filterModelsByRegion {} registry region true)
    (mem_filterModelsByRegion (.inl rfl))

lemma setExtra_residency (h : ctx.setExtra "_geo_client_region" v = .ok ctx') :
    isResidencyStrict ctx' = isResidencyStrict ctx := by
  obtain ⟨extra, hset, e⟩ := bind_eq_ok h
  cases e
  have hfind : extra.find? "residency" = ctx.chatRequest.extra.find? "residency" :=
    find?_setKey_ne (by decide) hset
  rw [isResidencyStrict, isResidencyStrict, jsonFieldString, jsonFieldString]
  rw [hfind]

lemma strict_of_setExtra (hstrict : Strict config ctx)
    (h : ctx.setExtra "_geo_client_region" v = .ok ctx') :
    isResidencyStrict ctx' ∨ config.affinity = .strict := by
  rw [setExtra_residency h]
  exact hstrict

lemma effectiveStrict_of_setExtra (hstrict : Strict config ctx)
    (h : ctx.setExtra "_geo_client_region" v = .ok ctx') :
    (isResidencyStrict ctx' || decide (config.affinity = .strict)) := by
  simpa using strict_of_setExtra hstrict h

lemma selectModel_no_base (config : GeoConfig) (registry : ConnectorRegistry)
    (ctx : RequestContext) : selectModel config none registry ctx = .ok ("", ctx) := by
  unfold selectModel
  cases config.enabled <;> rfl

lemma repick_mem {allowed : List String} (hne : allowed ≠ []) (picked : String) :
    (if !isAllowed picked allowed then allowed.headD "" else picked) ∈ allowed := by
  split
  · cases allowed with
    | nil => exact absurd rfl hne
    | cons m l => exact mem_cons_self
  · rename_i hin
    simpa [isAllowed] using hin

/-- under a strict policy the selected model carries the region of the client -/
theorem selectModel_carries (henabled : config.enabled) (hstrict : Strict config ctx)
    {base : Option Router} (h : selectModel config base registry ctx = .ok (model, ctx')) :
    model = "" ∨ Carries registry (inferClientRegion config ctx) model := by
  unfold selectModel at h
  rw [henabled] at h
  cases base with
  | none => cases h; exact .inl rfl
  | some router =>
    obtain ⟨ctx1, h1, h⟩ := bind_eq_ok h
    dsimp only at h
    rw [effectiveStrict_of_setExtra hstrict h1] at h
    split at h
    · obtain ⟨ctx2, -, h⟩ := bind_eq_ok h
      cases h
      exact .inl rfl
    · rename_i hsome
      have hne : filterModelsByRegion config registry (inferClientRegion config ctx)
          (isResidencyStrict ctx1) ≠ [] := fun e => hsome ⟨e, rfl⟩
      obtain ⟨ctx2, -, h⟩ := bind_eq_ok h
      obtain ⟨⟨picked, ctx3⟩, -, h⟩ := bind_eq_ok h
      split at h
      · rename_i hempty
        cases h
        exact .inl hempty
      · obtain ⟨ctx4, -, h⟩ := bind_eq_ok h
        cases h
        exact .inr ((mem_filterModelsByRegion (strict_of_setExtra hstrict h1)).1
          (repick_mem hne picked))

/-! ## when a model is selected -/

def Writable (ctx : RequestContext) : Prop :=
  ctx.chatRequest.extra.isNull ∨ ctx.chatRequest.extra.isObject

lemma setExtra_ok (h : Writable ctx) (key : String) (v : Json) :
    ∃ ctx', ctx.setExtra key v = .ok ctx' ∧ Writable ctx' := by
  have hok : (ctx.chatRequest.extra.setKey key v).isOk := by
    rw [setKey_isOk]
    rcases h with h | h <;> simp [h]
  cases hset : ctx.chatRequest.extra.setKey key v with
  | error e =>
    rw [hset] at hok
    cases hok
  | ok extra =>
    refine ⟨{ ctx with chatRequest := { ctx.chatRequest with extra } }, ?_,
      .inr (setKey_isObject hset)⟩
    rw [RequestContext.setExtra, hset]
    rfl

lemma setExtra_error (h : ¬ Writable ctx) (key : String) (v : Json) :
    ∃ e, ctx.setExtra key v = .error e := by
  have hok : (ctx.chatRequest.extra.setKey key v).isOk = false := by
    rw [setKey_isOk]
    simpa [Writable] using h
  cases hset : ctx.chatRequest.extra.setKey key v with
  | error e => exact ⟨e, by rw [RequestContext.setExtra, hset]; rfl⟩
  | ok extra =>
    rw [hset] at hok
    cases hok

theorem selectModel_none (henabled : config.enabled) (hstrict : Strict config ctx)
    (hwritable : Writable ctx)
    (hnone : ∀ model, ¬ Carries registry (inferClientRegion config ctx) model)
    (base : Option Router) : ∃ ctx', selectModel config base registry ctx = .ok ("", ctx') := by
  unfold selectModel
  rw [henabled]
  cases base with
  | none => exact ⟨ctx, rfl⟩
  | some router =>
    obtain ⟨ctx1, h1, hwritable1⟩ := setExtra_ok hwritable "_geo_client_region"
      (.str (inferClientRegion config ctx))
    obtain ⟨ctx2, h2, -⟩ := setExtra_ok hwritable1 "_geo_allowed_models" (.arr [])
    have hst := strict_of_setExtra hstrict h1
    have hempty : filterModelsByRegion config registry (inferClientRegion config ctx)
        (isResidencyStrict ctx1) = [] :=
      eq_nil_iff_forall_not_mem.2 fun m hm => hnone m ((mem_filterModelsByRegion hst).1 hm)
    refine ⟨ctx2, ?_⟩
    dsimp only
    rw [h1]
    show (if _ then _ else _) = _
    rw [if_pos ⟨hempty, effectiveStrict_of_setExtra hstrict h1⟩, h2]
    rfl

def pick (model : String) : Router := fun _ ctx => .ok (model, ctx)

lemma selectModel_pick (henabled : config.enabled) (hstrict : Strict config ctx)
    (hwritable : Writable ctx) (hne : model ≠ "")
    (hcarries : Carries registry (inferClientRegion config ctx) model) :
    ∃ ctx', selectModel config (some (pick model)) registry ctx = .ok (model, ctx') := by
  unfold selectModel
  rw [henabled]
  obtain ⟨ctx1, h1, hwritable1⟩ := setExtra_ok hwritable "_geo_client_region"
    (.str (inferClientRegion config ctx))
  have hmem := (mem_filterModelsByRegion (strict_of_setExtra hstrict h1)).2 hcarries
  have hfilter : filterModelsByRegion config registry (inferClientRegion config ctx)
      (isResidencyStrict ctx1) ≠ [] := ne_nil_of_mem hmem
  obtain ⟨ctx2, h2, hwritable2⟩ := setExtra_ok hwritable1 "_geo_allowed_models"
    (.arr ((filterModelsByRegion config registry (inferClientRegion config ctx)
      (isResidencyStrict ctx1)).map .str))
  obtain ⟨ctx3, h3, -⟩ := setExtra_ok hwritable2 "_geo_selected_region"
    (.str (regionOfModel registry model (inferClientRegion config ctx)))
  have hallowed : isAllowed model (filterModelsByRegion config registry
      (inferClientRegion config ctx) (isResidencyStrict ctx1)) :=
    any_eq_true.2 ⟨model, hmem, decide_eq_true rfl⟩
  refine ⟨ctx3, ?_⟩
  dsimp only
  rw [h1]
  show (if _ then _ else _) = _
  rw [if_neg fun h => hfilter h.1, if_neg hfilter, h2]
  show (if model = "" then _ else _) = _
  rw [if_neg hne, hallowed, Bool.not_true, Bool.and_false, if_neg Bool.false_ne_true, h3]
  rfl

lemma selectModel_throws (henabled : config.enabled) (hwritable : ¬ Writable ctx)
    (router : Router) : ∃ e, selectModel config (some router) registry ctx = .error e := by
  obtain ⟨e, he⟩ := setExtra_error hwritable "_geo_client_region"
    (.str (inferClientRegion config ctx))
  refine ⟨e, ?_⟩
  unfold selectModel
  rw [henabled]
  dsimp only
  rw [he]
  rfl

end

end AegisGate.GeoRouter
