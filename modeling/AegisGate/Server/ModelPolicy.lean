import AegisGate.Gateway.GeoRouter
import AegisGate.Server.Completion

/-!
# Policies about the model, and the fallback behind them

The whitelist, the region and the target model are settled when the request is routed.  Which models
are called is settled later, by the fallback chain.

* `Sends`  some path of the gateway calls the model for the request;
* `sends_iff`  what holds of all models that are called, however the breaker and the
  connectors behave, holds of the routed model and its fallbacks.

The whitelist, the region and the attribution come down to conditions on the fallback chain alone.
-/

namespace AegisGate.Server

open FallbackManager List GeoRouter

section
variable {σ : Type} (g : Gateway σ) (u : Upstream) (tenant : Option Tenant) (timedOut : Bool)
  (ctx : RequestContext)

/-! ## the calls of a request -/

lemma processRequest_ok {ctx' : RequestContext}
    (hroute : route g.router g.fallback.registry tenant timedOut ctx = .ok ctx')
    (h : List Invocation) :
    processRequest g u tenant timedOut ctx h = completeTarget g u ctx' h := by
  rw [processRequest, routed, hroute]

lemma processStreamingRequest_ok {ctx' : RequestContext}
    (hroute : route g.router g.fallback.registry tenant timedOut ctx = .ok ctx')
    (h : List Invocation) :
    processStreamingRequest g u tenant timedOut ctx h = streamTarget g u ctx' h := by
  rw [processStreamingRequest, routed, hroute]

/-- the model is called for the request, on one of the two paths -/
def Sends (h : List Invocation) (model : String) : Prop :=
  Contacts h (processRequest g u tenant timedOut ctx h).invocations model ∨
    Contacts h (processStreamingRequest g u tenant timedOut ctx h).invocations model

lemma not_contacts_self (h : List Invocation) (model : String) : ¬ Contacts h h model := by
  rw [Contacts, drop_length]
  exact not_mem_nil

lemma not_sends_of_error {e : RequestFailure}
    (hroute : route g.router g.fallback.registry tenant timedOut ctx = .error e)
    (h : List Invocation) (model : String) : ¬ Sends g u tenant timedOut ctx h model := by
  rw [Sends, processRequest, processStreamingRequest, routed, routed, hroute]
  exact fun hs => hs.elim (not_contacts_self h model) (not_contacts_self h model)

/-- a property of all models that are called is one of the candidates that have a connector -/
theorem sends_iff (S : String → Prop) :
    (∀ u h model, Sends g u tenant timedOut ctx h model → S model) ↔
      ∀ ctx', route g.router g.fallback.registry tenant timedOut ctx = .ok ctx' →
        ∀ model ∈ ctx'.targetModel :: g.fallback.getChain ctx'.targetModel,
          (g.fallback.registry.findByModel model).isSome → S model := by
  constructor
  · intro hall ctx' hroute model hmem hknown
    obtain ⟨before, e⟩ := executeWithFallback_servesOnly hmem hknown ctx'.chatRequest.messages []
    refine hall (servesOnly model) [] model (.inl ?_)
    rw [processRequest_ok g _ tenant timedOut ctx hroute, completeTarget_invocations, e]
    exact mem_append_right _ mem_cons_self
  · intro hcand u h model hs
    cases hroute : route g.router g.fallback.registry tenant timedOut ctx with
    | error e => exact absurd hs (not_sends_of_error g u tenant timedOut ctx hroute h model)
    | ok ctx' =>
      rw [Sends, processRequest_ok g u tenant timedOut ctx hroute,
        processStreamingRequest_ok g u tenant timedOut ctx hroute, completeTarget_invocations,
        streamTarget_invocations] at hs
      rcases hs with hs | hs
      · obtain ⟨hmem, hknown⟩ := (FallbackManager.tryCandidates_calls u _ _ _ _ _).contacts hs
        exact hcand ctx' hroute model hmem hknown
      · obtain ⟨hmem, hknown⟩ := (FallbackManager.tryStreamModel_calls u _ _ _ _).contacts hs
        exact hcand ctx' hroute model hmem hknown

end

lemma route_eq_ok {router : Router} {registry : ConnectorRegistry} {tenant : Option Tenant}
    {timedOut : Bool} {ctx ctx' : RequestContext}
    (h : route router registry tenant timedOut ctx = .ok ctx') :
    ctx'.targetModel ≠ "" ∧ (∀ t, tenant = some t → isModelAllowed t ctx'.targetModel) ∧
      ∃ ctx0, router registry ctx = .ok (ctx'.targetModel, ctx0) := by
  obtain ⟨model, ctx0, hrouter, hne, hallowed, rfl⟩ := route_inv h
  exact ⟨hne, hallowed, ctx0, hrouter⟩

/-! ## the whitelist -/

/-- the models called for a tenant are on its whitelist, whatever fails, exactly when the fallbacks of
the routed model that have a connector are -/
theorem whitelist_survives_iff {σ : Type} (g : Gateway σ) {tenant : Tenant}
    (hlist : tenant.modelWhitelist ≠ []) (timedOut : Bool) (ctx : RequestContext) :
    (∀ u h model, Sends g u (some tenant) timedOut ctx h model → model ∈ tenant.modelWhitelist) ↔
      ∀ ctx', route g.router g.fallback.registry (some tenant) timedOut ctx = .ok ctx' →
        ∀ model ∈ g.fallback.getChain ctx'.targetModel,
          (g.fallback.registry.findByModel model).isSome → model ∈ tenant.modelWhitelist := by
  rw [sends_iff]
  constructor
  · intro h ctx' hroute model hmem
    exact h ctx' hroute model (mem_cons_of_mem _ hmem)
  · intro h ctx' hroute model hmem hknown
    rcases mem_cons.1 hmem with rfl | hmem
    · simpa [isModelAllowed, hlist] using (route_eq_ok hroute).2.1 tenant rfl
    · exact h ctx' hroute model hmem hknown

/-- a router that picks `a`, whose fallbacks are given, and connectors for every model -/
def chained (fallbacks : List String) : Gateway Unit where
  router := pick "a"
  fallback := { registry := { connectors := [⟨"p", fun _ => true⟩] }, chains := [("a", fallbacks)] }
  semanticCache := some { keyInfo := fun _ _ _ => ("prompt", "partition") }

def listedTenant : Tenant := { id := "t", modelWhitelist := ["a", "b"] }

theorem whitelist_survives_listed :
    listedTenant.modelWhitelist ≠ [] ∧ ∀ u h model,
      Sends (chained ["b"]) u (some listedTenant) false {} h model →
        model ∈ listedTenant.modelWhitelist :=
  ⟨by decide, (whitelist_survives_iff (chained ["b"]) (by decide) false {}).2 (by
    intro ctx' hroute model hmem _
    cases hroute
    rw [mem_singleton.1 hmem]
    decide)⟩

/-- the connector of `a` fails, and the request goes to `c`, which the tenant may not use -/
theorem fallback_leaves_whitelist :
    Sends (chained ["c"]) (servesOnly "c") (some listedTenant) false {} [] "c" ∧
      "c" ∉ listedTenant.modelWhitelist :=
  ⟨.inl (by decide), by decide⟩

/-! ## the model that answered -/

/-- everything that is recorded about the answer names the model -/
structure Attributes {α : Type} (r : Handled α) (model : String) : Prop where
  outcomes : ∀ o ∈ r.outcomes, o.2 → o.1 = model
  costs : ∀ record ∈ r.costs, record.model = model
  cached : ∀ entry ∈ r.cached, entry.model = model

section
variable {σ : Type} (g : Gateway σ) (u : Upstream) (ctx : RequestContext) (h : List Invocation)

def CompletedBy (model : String) : Prop :=
  ∃ before content, g.fallback.executeWithFallback u ctx.chatRequest.messages ctx.targetModel h =
    (before ++ [.connector model], .ok content)

def StreamedBy (model : String) : Prop :=
  ∃ before usage,
    (g.fallback.streamWithFallback u ctx.chatRequest.messages ctx.targetModel h).invocations =
      before ++ [.connector model] ∧
    (g.fallback.streamWithFallback u ctx.chatRequest.messages ctx.targetModel h).ending = .ok usage

lemma completeTarget_attributes (hne : ctx.targetModel ≠ "") :
    Attributes (completeTarget g u ctx h) ctx.targetModel := by
  unfold completeTarget
  dsimp only
  split
  · exact ⟨by simp, nofun, nofun⟩
  split
  · exact ⟨by simp, fun _ hr => execute_costs hr rfl hne, nofun⟩
  · exact ⟨by simp, fun _ hr => execute_costs hr rfl hne, fun _ he =>
      (cacheResponse_entry he).1.trans (execute_targetModel _ _)⟩

lemma streamTarget_attributes (hne : ctx.targetModel ≠ "") :
    Attributes (streamTarget g u ctx h) ctx.targetModel := by
  unfold streamTarget
  dsimp only
  split
  · exact ⟨by simp, nofun, nofun⟩
  split
  · exact ⟨nofun, fun _ hr => execute_costs hr rfl hne, nofun⟩
  · refine ⟨fun o ho _ => ?_, fun _ hr => execute_costs hr rfl hne, fun _ he =>
      (cacheResponse_entry he).1.trans (execute_targetModel _ _)⟩
    rw [mem_singleton.1 ho]
    exact execute_targetModel _ _

lemma completeTarget_reports {model : String} (hc : CompletedBy g u ctx h model) :
    (ctx.targetModel, true) ∈ (completeTarget g u ctx h).outcomes := by
  obtain ⟨before, content, e⟩ := hc
  unfold completeTarget
  rw [e]
  dsimp only
  split <;> exact mem_cons_self

end

/-- costs, cache entries and outcomes name the model that answered, whatever fails, exactly when the
routed model has no fallback with a connector but itself -/
theorem attribution_iff {σ : Type} (g : Gateway σ) (tenant : Option Tenant) (timedOut : Bool)
    (ctx : RequestContext) :
    (∀ ctx', route g.router g.fallback.registry tenant timedOut ctx = .ok ctx' → ∀ u h model,
        (CompletedBy g u ctx' h model →
          Attributes (processRequest g u tenant timedOut ctx h) model) ∧
        (StreamedBy g u ctx' h model →
          Attributes (processStreamingRequest g u tenant timedOut ctx h) model)) ↔
      ∀ ctx', route g.router g.fallback.registry tenant timedOut ctx = .ok ctx' →
        ∀ model ∈ g.fallback.getChain ctx'.targetModel,
          (g.fallback.registry.findByModel model).isSome → model = ctx'.targetModel := by
  constructor
  · intro hall ctx' hroute model hmem hknown
    obtain ⟨before, e⟩ := executeWithFallback_servesOnly (mem_cons_of_mem _ hmem) hknown
      ctx'.chatRequest.messages []
    have hby : CompletedBy g (servesOnly model) ctx' [] model := ⟨[] ++ before, "", e⟩
    have hattr := (hall ctx' hroute (servesOnly model) [] model).1 hby
    rw [processRequest_ok g _ tenant timedOut ctx hroute] at hattr
    exact (hattr.outcomes _ (completeTarget_reports g _ ctx' [] hby) rfl).symm
  · intro hchain ctx' hroute u h model
    have hne := (route_eq_ok hroute).1
    have hself : ∀ m ∈ ctx'.targetModel :: g.fallback.getChain ctx'.targetModel,
        (g.fallback.registry.findByModel m).isSome → m = ctx'.targetModel := by
      intro m hm hknown
      rcases mem_cons.1 hm with rfl | hm
      · rfl
      · exact hchain ctx' hroute m hm hknown
    rw [processRequest_ok g u tenant timedOut ctx hroute,
      processStreamingRequest_ok g u tenant timedOut ctx hroute]
    constructor
    · rintro ⟨before, content, e⟩
      have hanswered : Answered _ _ (g.fallback.executeWithFallback u _ _ h).1 :=
        tryCandidates_ok u _ _ _ _ h (congrArg Prod.snd e)
      rw [e] at hanswered
      rw [hself model hanswered.last.1 hanswered.last.2]
      exact completeTarget_attributes g u ctx' h hne
    · rintro ⟨before, usage, e, hok⟩
      have hanswered : Answered _ _ (g.fallback.streamWithFallback u _ _ h).invocations :=
        tryStreamModel_ok u _ _ _ h hok
      rw [e] at hanswered
      rw [hself model hanswered.last.1 hanswered.last.2]
      exact streamTarget_attributes g u ctx' h hne

def greeting : RequestContext :=
  { chatRequest := { messages := [{ role := "user", content := "hello" }] } }

/-- `b` answers, and `a` is billed for it, cached with it and credited for it -/
theorem fallback_billed_to_primary :
    CompletedBy (chained ["b"]) (servesOnly "b") { greeting with targetModel := "a" } [] "b" ∧
      let r := processRequest (chained ["b"]) (servesOnly "b") none false greeting []
      r.costs.map (·.model) = ["a"] ∧ r.cached.map (·.model) = ["a"] ∧ r.outcomes = [("a", true)] :=
  ⟨⟨[.connector "a"], "", rfl⟩, rfl, rfl, rfl⟩

/-! ## the region -/

section
variable {σ : Type} (g : Gateway σ) {config : GeoConfig} {ctx : RequestContext}
  {base : Option Router} {timedOut : Bool} {tenant : Option Tenant} {ctx' : RequestContext}

/-- the gateway behind a geo router with the given base router -/
def Gateway.geo (config : GeoConfig) (base : Option Router) : Gateway σ :=
  { g with router := selectModel config base }

/-- the region that the models called for the request have to carry -/
def InRegion (config : GeoConfig) (ctx : RequestContext) (model : String) : Prop :=
  Carries g.fallback.registry (inferClientRegion config ctx) model

instance (config : GeoConfig) (ctx : RequestContext) (model : String) :
    Decidable (InRegion g config ctx model) :=
  inferInstanceAs (Decidable (Carries _ _ model))

lemma route_writable (henabled : config.enabled)
    (hroute : route (selectModel config base) g.fallback.registry tenant timedOut ctx =
      .ok ctx') : Writable ctx := by
  obtain ⟨hne, -, ctx0, hselect⟩ := route_eq_ok hroute
  by_contra hno
  cases base with
  | none =>
    rw [selectModel_no_base] at hselect
    injection hselect with e
    exact hne (congrArg Prod.fst e).symm
  | some router =>
    obtain ⟨e, he⟩ : ∃ e, selectModel config (some router) g.fallback.registry ctx =
        .error e := selectModel_throws henabled hno router
    rw [he] at hselect
    cases hselect

lemma not_sends_of_unrouted {ctx0 : RequestContext}
    (hselect : selectModel config base g.fallback.registry ctx = .ok ("", ctx0))
    (u : Upstream) (tenant : Option Tenant) (timedOut : Bool) (h : List Invocation)
    (model : String) : ¬ Sends (g.geo config base) u tenant timedOut ctx h model := by
  have hroute : route (selectModel config base) g.fallback.registry tenant timedOut ctx =
      .error (.error (makeError .noModelAvailable)) := by
    rw [route, hselect]
    rfl
  exact not_sends_of_error (g.geo config base) u tenant timedOut ctx hroute h model

end

/-- under a strict policy all models called carry the client's region, whatever the base router
picks and whatever fails, and nothing is called without such a model, exactly when the fallbacks
with a connector of the region's models carry it too and the router can write to `extra`, where it
has to -/
theorem residency_survives_iff {σ : Type} (g : Gateway σ) {config : GeoConfig}
    {ctx : RequestContext} (henabled : config.enabled) (hstrict : Strict config ctx) :
    ((∀ base tenant timedOut u h model, Sends (g.geo config base) u tenant timedOut ctx h model →
        InRegion g config ctx model) ∧ ((∀ model, ¬ InRegion g config ctx model) → ∀ base,
        (∃ ctx', selectModel config base g.fallback.registry ctx = .ok ("", ctx')) ∧
          ∀ tenant timedOut u h model, ¬ Sends (g.geo config base) u tenant timedOut ctx h model)) ↔
      (Writable ctx → ∀ model ≠ "", InRegion g config ctx model →
        ∀ next ∈ g.fallback.getChain model, (g.fallback.registry.findByModel next).isSome →
          InRegion g config ctx next) ∧ (Writable ctx ∨ ∃ model, InRegion g config ctx model) := by
  constructor
  · rintro ⟨hsent, hnone⟩
    constructor
    · intro hwritable model hne hregion next hmem hknown
      obtain ⟨ctx0, hselect⟩ := selectModel_pick henabled hstrict hwritable hne hregion
      have hroute : route (selectModel config (some (pick model)))
          g.fallback.registry none false ctx = .ok { ctx0 with targetModel := model } := by
        rw [route, hselect]
        exact if_neg hne
      exact (sends_iff (g.geo config (some (pick model))) none false ctx _).1
        (hsent (some (pick model)) none false) _ hroute next
        (mem_cons_of_mem _ hmem) hknown
    · by_contra hno
      rw [not_or, not_exists] at hno
      obtain ⟨⟨ctx', hselect⟩, -⟩ := hnone hno.2 (some (pick ""))
      obtain ⟨e, he⟩ : ∃ e, selectModel config (some (pick ""))
          g.fallback.registry ctx = .error e := selectModel_throws henabled hno.1 _
      rw [he] at hselect
      cases hselect
  · rintro ⟨hchain, hwrite⟩
    constructor
    · intro base tenant timedOut
      refine (sends_iff (g.geo config base) tenant timedOut ctx _).2 ?_
      intro ctx' hroute model hmem hknown
      obtain ⟨hne, -, ctx0, hselect⟩ := route_eq_ok hroute
      have htarget := (selectModel_carries henabled hstrict hselect).resolve_left hne
      rcases mem_cons.1 hmem with rfl | hmem
      · exact htarget
      · exact hchain (route_writable g henabled hroute) ctx'.targetModel hne htarget model hmem
          hknown
    · intro hnone base
      have hwritable := hwrite.resolve_right fun ⟨model, hm⟩ => hnone model hm
      obtain ⟨ctx0, hselect⟩ := selectModel_none henabled hstrict hwritable hnone base
      exact ⟨⟨ctx0, hselect⟩, fun tenant timedOut u h model =>
        not_sends_of_unrouted g hselect u tenant timedOut h model⟩

/-- models of two regions, of which `eu-model` has the other one as its fallback -/
def twoRegions (fallbacks : List String) : Gateway Unit where
  router := pick ""
  fallback :=
    { registry :=
        { connectors := [⟨"p", fun _ => true⟩]
          modelInfos := ((Table.empty.put ⟨"us-model", ["region:us-east"]⟩).put
            ⟨"eu-model", ["region:EU-Central"]⟩).put ⟨"eu-spare", ["region:eu-central"]⟩ }
      chains := [("eu-model", fallbacks)] }

def europeanRequest : RequestContext :=
  { chatRequest := { extra := .obj [("client_region", .str " eu-central"),
                                    ("residency", .str "Strict")] } }

/-- the fallback of `eu-model` is in the region -/
theorem residency_survives_chained :
    isResidencyStrict europeanRequest ∧ (twoRegions ["eu-spare"]).fallback.getChain "eu-model" ≠ [] ∧
      ∀ base tenant timedOut u h model,
        Sends ((twoRegions ["eu-spare"]).geo { enabled := true } base) u tenant timedOut
          europeanRequest h model →
            InRegion (twoRegions ["eu-spare"]) { enabled := true } europeanRequest model := by
  refine ⟨by decide, by decide, ((residency_survives_iff (twoRegions ["eu-spare"]) rfl
    (.inl (by decide))).2 ⟨fun _ model _ _ next hmem _ => ?_, .inl (.inr rfl)⟩).1⟩
  simp only [twoRegions, getChain, lookup_cons, lookup_nil] at hmem
  split at hmem
  · cases hmem with
    | head => decide +kernel
    | tail _ hmem => cases hmem
  · cases hmem

/-- the connector of `eu-model` fails, and the request goes to `us-model` -/
theorem fallback_leaves_region :
    isResidencyStrict europeanRequest ∧
      inferClientRegion { enabled := true } europeanRequest = "eu-central" ∧
      Sends ((twoRegions ["us-model"]).geo { enabled := true } (some (pick "eu-model")))
        (servesOnly "us-model") none false europeanRequest [] "us-model" ∧
      ¬ InRegion (twoRegions ["us-model"]) { enabled := true } europeanRequest "us-model" :=
  ⟨by decide +kernel, by decide +kernel, .inl (by decide +kernel), by decide +kernel⟩

end AegisGate.Server
