import AegisGate.Cache.Tenants

/-!
# Images and the cache

A message may carry images beside its text.  They are sent upstream, but the key of the cache is made
from the texts alone.  `images_apart_iff` says which two requests of a tenant never share an answer:
whether their images differ is not among what counts.

* `upstreamParts`  the parts of a message that are sent upstream and are not text;
* `answerOf`  what `finalizeNonStreamingResponse`, or the end of a stream, stores for a request;
* `NeverShares`  no answer that was stored for the first request only is given to the second.
-/

namespace AegisGate.Cache

def upstreamParts (m : Message) : List Json :=
  match m.upstreamContent with
  | .ok (.arr parts) => parts.filter fun part =>
      match isTextPart part with
      | .ok isText => !isText
      | .error _ => true
  | _ => []

/-- two requests of a tenant that are sent upstream with different images -/
def ImagesDiffer (first second : RequestContext) : Prop :=
  first.tenantId = second.tenantId ∧
    first.chatRequest.messages.map upstreamParts ≠ second.chatRequest.messages.map upstreamParts

section
variable (k : KeyedConfig) (ctx : RequestContext)

/-- the answer to a request, as it is stored under the key of the request -/
def answerOf (now nowCommit : Int) : ContextPut :=
  ⟨ctx.chatRequest.messages, ctx.accumulatedResponse, ctx.targetModel, ctx.tenantId,
    k.conversationId ctx.chatRequest, now, nowCommit⟩

def KeyedConfig.writes : Bool :=
  !ctx.chatRequest.messages.isEmpty && !ctx.hasTools && k.stores (answerOf k ctx 0 0)

def finalize (now nowCommit : Int) : List TenantCall :=
  if k.writes ctx then [.putFromContext (answerOf k ctx now nowCommit)] else []

def NeverShares (crossTenant : Bool) (first second : RequestContext) : Prop :=
  ∀ (cfg : CacheConfig) (σ : Type) (V : VectorStore σ) (v : σ) (before after : List TenantCall)
    (now nowCommit : Int) (q : ContextGet) (hit : CacheHit),
    cfg.crossTenant = crossTenant → q.ctx = second →
      (∀ p, .putFromContext p ∈ before ++ after → p.response ≠ first.accumulatedResponse) →
      (process cfg k V q (afterTenants cfg k V v
        (before ++ finalize k first now nowCommit ++ after))).1 = some hit →
        hit.response ≠ first.accumulatedResponse

/-- the texts that the keys of two requests are made from agree -/
def SameTexts (first second : RequestContext) : Prop :=
  k.conversationId first.chatRequest = k.conversationId second.chatRequest ∧
    systemHash k.sha first.chatRequest.messages = systemHash k.sha second.chatRequest.messages ∧
    k.contextHash first.chatRequest.messages = k.contextHash second.chatRequest.messages

/-- one of the requests is not for the cache, or they differ in their model or their texts -/
def Apart (crossTenant : Bool) (first second : RequestContext) : Prop :=
  k.writes first = false ∨ k.looksUp second = false ∨
    (second.chatRequest.model ≠ "" ∧ first.targetModel ≠ "" ∧
      first.targetModel ≠ second.chatRequest.model) ∨
    crossTenant = false ∧ ¬ SameTexts k first second

end

section
variable {k : KeyedConfig} {crossTenant : Bool} {first second : RequestContext}

lemma apart_never (htenant : first.tenantId = second.tenantId) (h : Apart k crossTenant first second) :
    NeverShares k crossTenant first second := by
  intro cfg σ V v before after now nowCommit q hit hcross hq hother hhit hsame
  obtain ⟨hlooks, e, he, hresponse, hmodel, hkey⟩ := process_hit hhit
  obtain ⟨p, hp, hstores, id, used, rfl⟩ := entries_stored v _ e he
  subst hq
  have hp2 : .putFromContext p ∈ finalize k first now nowCommit := by
    rcases List.mem_append.1 hp with hp | hp
    · rcases List.mem_append.1 hp with hp | hp
      · exact absurd (hresponse.trans hsame) (hother p (List.mem_append_left _ hp))
      · exact hp
    · exact absurd (hresponse.trans hsame) (hother p (List.mem_append_right _ hp))
  unfold finalize at hp2
  split at hp2
  · next hwrites =>
    obtain rfl : p = answerOf k first now nowCommit := by simpa using hp2
    rcases h with h | h | h | ⟨hoff, h⟩
    · rw [hwrites] at h
      cases h
    · rw [hlooks] at h
      cases h
    · exact hmodel h
    · rw [hcross, hoff] at hkey
      have hkeys := hkey.resolve_right Bool.false_ne_true
      rw [looksUp_partitionKey hlooks] at hkeys
      have hkeys := (stores_partitionKey hstores).symm.trans hkeys
      rw [← htenant] at hkeys
      exact h (partitionKey_inj_tenant hkeys)
  · cases hp2

lemma find_put_first (crossTenant : Bool) (r : PutRequest) :
    (put { smallCache with crossTenant } oneFound r ⟨{}, ()⟩).cache.entries.find
      "ns_0_0" = some (r.entry "ns_0_0") := by
  have hid : makeEntryId ("ns_" ++ toString 0) 0 = "ns_0_0" := by decide
  show ((Table.empty : Table CacheEntry.id).put
    (r.entry (makeEntryId ("ns_" ++ toString 0) 0))).find "ns_0_0" = _
  exact Table.find_put_self _ _

lemma get_first {cfg : CacheConfig} {r : GetRequest} {w : World Unit} {e : CacheEntry}
    (hf : w.cache.entries.find "ns_0_0" = some e) (hnow : e.isExpired cfg r.now = false)
    (hshared : e.isExpired cfg r.nowShared = false)
    (hmodel : ¬ (r.model ≠ "" ∧ e.model ≠ "" ∧ e.model ≠ r.model))
    (hkey : e.partitionKey = r.partitionKey ∨ cfg.crossTenant) :
    (get cfg oneFound r w).1 = some ⟨e.response, e.prompt, 0⟩ := by
  by_cases hsame : e.partitionKey = r.partitionKey
  · simp [get, oneFound, lookup, hf, hnow, hmodel, hsame]
  · simp [get, oneFound, lookup, getCrossTenant, hf, hnow, hshared, hmodel, hsame,
      hkey.resolve_left hsame]

lemma never_apart (htenant : first.tenantId = second.tenantId)
    (h : NeverShares k crossTenant first second) : Apart k crossTenant first second := by
  by_contra hnot
  unfold Apart at hnot
  push Not at hnot
  obtain ⟨hwrites, hlooks, hmodel, htexts⟩ := hnot
  have hwrites : k.writes first := by simpa using hwrites
  have hlooks : k.looksUp second := by simpa using hlooks
  have hstores : k.stores (answerOf k first 0 0) := by
    exact (Bool.and_eq_true_iff.1 hwrites).2
  refine h { smallCache with crossTenant } Unit oneFound () [] [] 0 0 ⟨second, 0, 0⟩
    ⟨first.accumulatedResponse, ((answerOf k first 0 0).keyInfo k).prompt, 0⟩ rfl rfl
    nofun ?_ rfl
  rw [finalize, if_pos hwrites]
  show (process _ k oneFound ⟨second, 0, 0⟩ (putFromContext _ k oneFound (answerOf k first 0 0)
    ⟨{}, ()⟩)).1 = _
  rw [process, if_pos hlooks, putFromContext, if_pos hstores]
  refine get_first (find_put_first crossTenant _) rfl rfl (fun hclash => ?_) ?_
  · exact hclash.2.2 (hmodel hclash.1 hclash.2.1)
  · cases hoff : crossTenant with
    | true => exact .inr rfl
    | false =>
      obtain ⟨hconversation, hsystem, hcontext⟩ := htexts hoff
      refine .inl ((stores_partitionKey hstores).trans ?_)
      show _ = (k.keyInfo second).partitionKey
      rw [looksUp_partitionKey hlooks, KeyConfig.partitionKey, KeyConfig.partitionKey, ← htenant,
        ← hconversation, ← hsystem, ← hcontext]
      rfl

end

/-- two requests with different images keep apart exactly when they do by model or text -/
theorem images_apart_iff (k : KeyedConfig) (crossTenant : Bool) (first second : RequestContext) :
    (ImagesDiffer first second → NeverShares k crossTenant first second) ↔
      (ImagesDiffer first second → Apart k crossTenant first second) := by
  constructor
  · exact fun h hdiffer => never_apart hdiffer.1 (h hdiffer)
  · exact fun h hdiffer => apart_never hdiffer.1 (h hdiffer)

def aboutImage (url : String) : RequestContext where
  tenantId := "t"
  chatRequest :=
    { model := "m"
      messages :=
        [{ role := "user"
           content := "what is this?"
           contentParts := .arr
             [.obj [("type", .str "text"), ("text", .str "what is this?")],
               .obj [("type", .str "image_url"), ("image_url", .obj [("url", .str url)])]] }] }
  targetModel := "m"
  accumulatedResponse := "a cat"

theorem dog_is_called_a_cat :
    ImagesDiffer (aboutImage "cat.png") (aboutImage "dog.png") ∧
      (process smallCache { sha := spelled } oneFound ⟨aboutImage "dog.png", 1, 1⟩
        (afterTenants smallCache { sha := spelled } oneFound ()
          (finalize { sha := spelled } (aboutImage "cat.png") 0 0))).1 =
        some ⟨"a cat", "what is this?", 0⟩ := by
  have hparts : ∀ url, (aboutImage url).chatRequest.messages.map upstreamParts =
      [[.obj [("type", .str "image_url"), ("image_url", .obj [("url", .str url)])]]] := fun _ => rfl
  refine ⟨⟨rfl, fun h => ?_⟩, by decide⟩
  rw [hparts, hparts] at h
  simp at h

end AegisGate.Cache
