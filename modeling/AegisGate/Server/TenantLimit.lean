import Mathlib.Tactic.Positivity
import AegisGate.Auth.Models
import AegisGate.Core.Types
import AegisGate.Gateway.RateLimiter
import AegisGate.Lib.Window

/-!
# Tenant rate limiting on the chat path

`GatewayRuntime::resolveTenantPolicy` and the rate-limit step that `processRequest` and
`processStreamingRequest` share.  A request arrives at a time; the state between requests is the
gateway's own limiter, the tenant's limiter being built anew by every `resolveTenantPolicy`.

* `estimatedTokens`  the cost of a request;
* `resolveTenantPolicy`, `rateLimitStep`  the limiter a request obtains, and its verdict;
* `admitted`  the requests of a sequence that pass.
-/

namespace AegisGate

open Window
namespace TenantLimit

inductive AbuseAction where
  | allow
  | warn
  | throttle
  | block
  deriving DecidableEq, Repr

/-- `throttleFactor` is `none` without an abuse detector -/
def abuseCostMultiplier (throttleFactor : Option ℚ) (action : AbuseAction) : ℚ :=
  if action = .throttle then
    let f := throttleFactor.getD (1 / 2)
    if 0 < f ∧ f < 1 then 1 / f else 2
  else 1

/-- a chat request as it reaches the rate-limit step -/
structure Arrival where
  time : ℚ
  apiKey : String
  authContext : Option AuthContext
  chatRequest : ChatRequest
  throttleFactor : Option ℚ
  abuseAction : AbuseAction

open Arrival

def estimatedTokens (a : Arrival) : ℚ :=
  (1 + (a.chatRequest.messages.map (fun m => (m.content.utf8ByteSize : ℚ) / 3)).sum)
    * abuseCostMultiplier a.throttleFactor a.abuseAction

def rlKey (a : Arrival) : String :=
  match a.authContext with
  | some c =>
    if c.tenantId ≠ "" then c.tenantId else if a.apiKey = "" then "anonymous" else a.apiKey
  | none => if a.apiKey = "" then "anonymous" else a.apiKey

structure TenantPolicy where
  tenant : Option Tenant := none
  rateLimiter : Option RateLimiter := none

def effectiveRefill (t : Tenant) : ℚ := if 0 < t.rateLimitRefill then t.rateLimitRefill else 1

def tenantConfig (t : Tenant) : RateLimiter.Config := ⟨t.rateLimitTokens, effectiveRefill t⟩

/-- `getTenant` is `none` without a persistent store -/
def resolveTenantPolicy (getTenant : Option (String → Option Tenant)) (a : Arrival) :
    TenantPolicy :=
  match a.authContext, getTenant with
  | some c, some get =>
    match get c.tenantId with
    | some t =>
      { tenant := some t
        rateLimiter :=
          if 0 < t.rateLimitTokens then some (.ofConfig (tenantConfig t)) else none }
    | none => {}
  | _, _ => {}

/-- the verdict, and the gateway's own limiter afterwards -/
def rateLimitStep (hash : String → Nat) (getTenant : Option (String → Option Tenant))
    (global : RateLimiter) (a : Arrival) : RateLimiter × Bool :=
  match (resolveTenantPolicy getTenant a).rateLimiter with
  | some rl => (global, (rl.allow hash a.time (rlKey a) (estimatedTokens a)).2)
  | none => global.allow hash a.time (rlKey a) (estimatedTokens a)

def admitted (hash : String → Nat) (getTenant : Option (String → Option Tenant)) :
    RateLimiter → List Arrival → List Arrival
  | _, [] => []
  | global, a :: l =>
    let (global', ok) := rateLimitStep hash getTenant global a
    if ok then a :: admitted hash getTenant global' l else admitted hash getTenant global' l

lemma one_le_abuseCostMultiplier (f : Option ℚ) (action : AbuseAction) :
    1 ≤ abuseCostMultiplier f action := by
  unfold abuseCostMultiplier
  split
  · dsimp only
    split
    · next h => exact (one_le_div h.1).2 h.2.le
    · norm_num
  · exact le_refl 1

lemma estimatedTokens_pos (a : Arrival) : 0 < estimatedTokens a := by
  have hsum : 0 ≤ (a.chatRequest.messages.map fun m => (m.content.utf8ByteSize : ℚ) / 3).sum := by
    apply List.sum_nonneg
    intro x hx
    obtain ⟨m, _, rfl⟩ := List.mem_map.1 hx
    positivity
  have hmul := one_le_abuseCostMultiplier a.throttleFactor a.abuseAction
  exact mul_pos (by linarith) (by linarith)

/-- the request belongs to the tenant with record `t` -/
def OfTenant (getTenant : String → Option Tenant) (t : Tenant) (a : Arrival) : Prop :=
  ∃ c, a.authContext = some c ∧ getTenant c.tenantId = some t

/-- every request of a limited tenant meets a full bucket: its own cost is compared with the
tenant's burst, and nothing is remembered -/
lemma rateLimitStep_tenant (hash : String → Nat) (getTenant : String → Option Tenant)
    (t : Tenant) (ht : 0 < t.rateLimitTokens) (global : RateLimiter) (a : Arrival)
    (ha : OfTenant getTenant t a) : rateLimitStep hash (some getTenant) global a
      = (global, decide (estimatedTokens a ≤ t.rateLimitTokens)) := by
  obtain ⟨c, hc, hget⟩ := ha
  have hp : (resolveTenantPolicy (some getTenant) a).rateLimiter
      = some (.ofConfig (tenantConfig t)) := by
    simp [resolveTenantPolicy, hc, hget, ht]
  unfold rateLimitStep
  rw [hp]
  simp only [Prod.mk.injEq, true_and]
  rw [Bool.eq_iff_iff, RateLimiter.allow_ofConfig hash a.time (tenantConfig t) (rlKey a)
    (estimatedTokens_pos a), decide_eq_true_iff]
  rfl

/-! ## whole sequences -/

section
variable (hash : String → Nat) (getTenant : String → Option Tenant) (t : Tenant)

def affordable (l : List Arrival) : List Arrival :=
  l.filter (fun a => decide (estimatedTokens a ≤ t.rateLimitTokens))

lemma admitted_tenant (ht : 0 < t.rateLimitTokens) (l : List Arrival) (global : RateLimiter)
    (hl : ∀ a ∈ l, OfTenant getTenant t a) :
    admitted hash (some getTenant) global l = affordable t l := by
  induction l generalizing global with
  | nil => rfl
  | cons a l ih =>
    have ha := hl a List.mem_cons_self
    have ih := ih global fun x hx => hl x (List.mem_cons_of_mem a hx)
    simp only [admitted, rateLimitStep_tenant hash getTenant t ht global a ha]
    rw [ih]
    unfold affordable
    rw [List.filter_cons]

/-- the admitted requests of a tenant keep its rate exactly when those that cost at most the burst
already arrive within it: the limiter never adds up two requests -/
theorem tenant_rate_iff (ht : 0 < t.rateLimitTokens) (global : RateLimiter) (l : List Arrival)
    (hl : ∀ a ∈ l, OfTenant getTenant t a) :
    WithinRate time estimatedTokens t.rateLimitTokens (effectiveRefill t)
        (admitted hash (some getTenant) global l) ↔ ∀ a b, a ≤ b →
          cost time estimatedTokens a b (affordable t l)
            ≤ t.rateLimitTokens + effectiveRefill t * (b - a) := by
  rw [admitted_tenant hash getTenant t ht l global hl]
  rfl

def emptyArrival (tenantId : String) : Arrival where
  time := 0
  apiKey := ""
  authContext := some { tenantId, userId := "" }
  chatRequest := {}
  throttleFactor := none
  abuseAction := .allow

lemma estimatedTokens_emptyArrival (tenantId : String) :
    estimatedTokens (emptyArrival tenantId) = 1 := by
  simp [estimatedTokens, emptyArrival, abuseCostMultiplier]

/-- no burst and no refill of a tenant bounds what passes: a flood of the cheapest requests exceeds
any -/
theorem tenant_rate_unbounded (ht : 0 < t.rateLimitTokens) (hget : getTenant t.id = some t)
    (global : RateLimiter) : ∃ l : List Arrival, (∀ a ∈ l, OfTenant getTenant t a) ∧
      ¬ WithinRate time estimatedTokens t.rateLimitTokens (effectiveRefill t)
        (admitted hash (some getTenant) global l) := by
  obtain ⟨n, hn⟩ := Int.eq_ofNat_of_zero_le ht.le
  have hM : (1 : ℚ) ≤ t.rateLimitTokens := by exact_mod_cast ht
  have hall : ∀ a ∈ List.replicate (n + 1) (emptyArrival t.id), OfTenant getTenant t a := by
    intro a ha
    rw [List.eq_of_mem_replicate ha]
    exact ⟨_, rfl, hget⟩
  refine ⟨List.replicate (n + 1) (emptyArrival t.id), hall, fun h => ?_⟩
  rw [admitted_tenant hash getTenant t ht _ global hall] at h
  have hkeep : affordable t (List.replicate (n + 1) (emptyArrival t.id))
      = List.replicate (n + 1) (emptyArrival t.id) := by
    apply List.filter_eq_self.2
    intro a ha
    rw [List.eq_of_mem_replicate ha, estimatedTokens_emptyArrival]
    simpa using hM
  have h0 := h 0 0 (le_refl 0)
  rw [hkeep, cost_replicate time estimatedTokens 0 _ rfl, estimatedTokens_emptyArrival, hn] at h0
  push_cast at h0
  linarith

end

def smallTenant : Tenant := { id := "t1", rateLimitTokens := 10, rateLimitRefill := 1 }

def smallTenants (id : String) : Option Tenant := if id = "t1" then some smallTenant else none

theorem smallTenant_unbounded : ∃ l : List Arrival, (∀ a ∈ l, OfTenant smallTenants smallTenant a) ∧
    ¬ WithinRate time estimatedTokens smallTenant.rateLimitTokens (effectiveRefill smallTenant)
      (admitted (fun _ => 0) (some smallTenants) (.ofConfig {}) l) :=
  tenant_rate_unbounded _ smallTenants smallTenant (by decide) rfl _

def promptArrival : Arrival :=
  { emptyArrival "t1" with
    chatRequest := { messages := [{ role := "user", content := "fifteen bytes !" }] } }

lemma estimatedTokens_promptArrival : estimatedTokens promptArrival = 6 := by
  have hsize : "fifteen bytes !".utf8ByteSize = 15 := by decide
  simp only [estimatedTokens, promptArrival, emptyArrival, abuseCostMultiplier, List.map_cons,
    List.map_nil, hsize, reduceCtorEq, if_false]
  norm_num

lemma promptArrival_ofTenant : OfTenant smallTenants smallTenant promptArrival :=
  ⟨_, rfl, rfl⟩

lemma affordable_promptArrival (n : Nat) :
    affordable smallTenant (List.replicate n promptArrival) = List.replicate n promptArrival := by
  apply List.filter_eq_self.2
  intro a ha
  rw [List.eq_of_mem_replicate ha, estimatedTokens_promptArrival]
  decide

lemma smallTenant_rate : effectiveRefill smallTenant = 1 ∧
    ((smallTenant.rateLimitTokens : Int) : ℚ) = 10 := ⟨by decide, rfl⟩

def laterPrompt : Arrival := { promptArrival with time := 2 }

/-- two prompts of six tokens, two seconds apart, stay within the rate -/
theorem tenant_rate_apart :
    WithinRate time estimatedTokens smallTenant.rateLimitTokens (effectiveRefill smallTenant)
      (admitted (fun _ => 0) (some smallTenants) (.ofConfig {}) [promptArrival, laterPrompt]) := by
  have htokens := estimatedTokens_promptArrival
  have hlater : estimatedTokens laterPrompt = 6 := htokens
  refine (tenant_rate_iff (fun _ => 0) smallTenants smallTenant (by decide) (.ofConfig {})
    [promptArrival, laterPrompt] ?_).2 ?_
  · simpa using ⟨promptArrival_ofTenant, promptArrival_ofTenant⟩
  intro a b hab
  obtain ⟨hr, hM⟩ := smallTenant_rate
  have hkeep : affordable smallTenant [promptArrival, laterPrompt] = [promptArrival, laterPrompt] := by
    refine List.filter_eq_self.2 ?_
    simp only [List.forall_mem_cons, htokens, hlater]
    decide
  have h0 : promptArrival.time = 0 := rfl
  have h2 : laterPrompt.time = 2 := rfl
  rw [hkeep, hr, hM]
  by_cases hin : a ≤ 0 ∧ 0 ≤ b
  · by_cases hin' : a ≤ 2 ∧ 2 ≤ b
    · rw [cost_cons_in _ _ _ (by rwa [h0]), cost_cons_in _ _ _ (by rwa [h2]), htokens, hlater, cost_nil]
      linarith
    · rw [cost_cons_in _ _ _ (by rwa [h0]), cost_cons_out _ (by rwa [h2]), htokens, cost_nil]
      linarith
  · rw [cost_cons_out _ (by rwa [h0])]
    by_cases hin' : a ≤ 2 ∧ 2 ≤ b
    · rw [cost_cons_in _ _ _ (by rwa [h2]), hlater, cost_nil]
      linarith
    · rw [cost_cons_out _ (by rwa [h2]), cost_nil]
      linarith

/-- two prompts of six tokens at one instant both pass a burst of ten -/
theorem tenant_rate_exceeded :
    admitted (fun _ => 0) (some smallTenants) (.ofConfig {}) [promptArrival, promptArrival]
        = [promptArrival, promptArrival]
      ∧ ¬ WithinRate time estimatedTokens smallTenant.rateLimitTokens (effectiveRefill smallTenant)
          (admitted (fun _ => 0) (some smallTenants) (.ofConfig {})
            [promptArrival, promptArrival]) := by
  have hall : ∀ a ∈ [promptArrival, promptArrival], OfTenant smallTenants smallTenant a := by
    simpa using promptArrival_ofTenant
  have hadm := (admitted_tenant (fun _ => 0) smallTenants smallTenant (by decide) _
    (.ofConfig {}) hall).trans (affordable_promptArrival 2)
  refine ⟨hadm, fun h => ?_⟩
  rw [hadm] at h
  have h0 := h 0 0 (le_refl 0)
  rw [cost_replicate time estimatedTokens 0 promptArrival rfl 2,
    estimatedTokens_promptArrival, smallTenant_rate.1, smallTenant_rate.2] at h0
  norm_num at h0

end TenantLimit
end AegisGate
