import AegisGate.Core.Types
import AegisGate.Lib.Separator

/-!
# The key of a cached answer

The second version of the cache key, `computeConversationHashV2` and `extractCacheKeyInfoV2` of
`semantic_cache.cpp`, and `ConversationIdResolver`.  An answer is stored under the last user message,
in a partition for the tenant, the conversation, the system prompt and the messages before.

* `Sha256`  the digest, taken to be free of collisions;
* `context`, `encode`  the messages before the current turn, and the text that is hashed;
* `resolve`  the id of a conversation, given by the client or made from the messages;
* `extractCacheKeyInfoV2`  prompt and partition.

The four parts of a partition key can be told apart (`partitionKey_inj`).  The messages of a context
cannot, in general: a role or content may hold the bytes that separate them (`conversation_key_iff`).

A character stands for a byte.
-/

namespace AegisGate.Cache

open List Separator

def unitSeparator : Char := '\x1f'

def recordSeparator : Char := '\x1e'

/-- a digest is written in hexadecimal, so that no separator is in it -/
structure Sha256 where
  digest : String → String
  injective : Function.Injective digest
  nonempty : ∀ s, digest s ≠ ""
  plain : ∀ s, unitSeparator ∉ (digest s).toList

/-- a character in a form that has no separator -/
def spellChar (c : Char) : List Char := if c = unitSeparator then ['0', '0'] else ['1', c]

lemma length_spellChar (c : Char) : (spellChar c).length = 2 := by
  unfold spellChar
  split <;> rfl

lemma spellChar_injective : Function.Injective spellChar := by
  intro c d h
  unfold spellChar at h
  split at h
  · next hc =>
    split at h
    · next hd => rw [hc, hd]
    · simp at h
  · split at h
    · simp at h
    · simpa using h

lemma flatMap_spellChar_injective (x : List Char) : ∀ y, x.flatMap spellChar = y.flatMap spellChar →
    x = y := by
  induction x with
  | nil =>
    intro y h
    cases y with
    | nil => rfl
    | cons d y =>
      have hlen := congrArg List.length h
      rw [flatMap_cons, length_append, length_spellChar, flatMap_nil, length_nil] at hlen
      omega
  | cons c x ih =>
    intro y h
    cases y with
    | nil =>
      have hlen := congrArg List.length h
      rw [flatMap_cons, length_append, length_spellChar, flatMap_nil, length_nil] at hlen
      omega
    | cons d y =>
      obtain ⟨hc, hrest⟩ := append_inj h ((length_spellChar c).trans (length_spellChar d).symm)
      rw [spellChar_injective hc, ih y hrest]

/-- texts spelled out: what is asked of the digest can be met -/
def spelled : Sha256 where
  digest s := String.ofList ('#' :: s.toList.flatMap spellChar)
  injective := by
    intro s t h
    have hlist := congrArg String.toList h
    rw [String.toList_ofList, String.toList_ofList] at hlist
    exact String.toList_inj.1 (flatMap_spellChar_injective _ _ (List.cons.inj hlist).2)
  nonempty s h := by
    have hlist := congrArg String.toList h
    rw [String.toList_ofList] at hlist
    cases hlist
  plain s h := by
    rw [String.toList_ofList] at h
    rcases mem_cons.1 h with h | h
    · exact absurd h (by decide)
    · obtain ⟨c, -, hc⟩ := mem_flatMap.1 h
      unfold spellChar at hc
      split at hc
      · exact absurd hc (by decide)
      · next hne =>
        rcases mem_cons.1 hc with hc | hc
        · exact absurd hc (by decide)
        · exact hne (mem_singleton.1 hc).symm

/-! ## the context of a conversation -/

inductive ConversationHashMode where
  | none
  | full
  | window
  deriving DecidableEq, Repr

structure ConversationHashConfig where
  mode : ConversationHashMode := .none
  windowSize : ℕ := 4

/-- the messages without a trailing user message, which is the current turn -/
def context (messages : List Message) : List Message :=
  if messages.getLast?.any (·.role = "user") then messages.dropLast else messages

def encode (messages : List Message) : String :=
  String.join (messages.map fun m => m.role ++ "\x1f" ++ m.content ++ "\x1e")

section
variable (sha : Sha256) (messages : List Message)

def computeConversationHashV2
    (config : ConversationHashConfig) (summarizer : Option (List Message → String)) : String :=
  if config.mode = .none ∨ messages.isEmpty then ""
  else if (context messages).isEmpty then ""
  else
    let ctx := match config.mode with
      | .window => (context messages).drop
          ((context messages).length - min config.windowSize (context messages).length)
      | _ => context messages
    let body := match summarizer with
      | none => encode ctx
      | some summarize =>
        if summarize ctx = "" then encode ctx
        else encode ctx ++ "\x1d|summary|" ++ summarize ctx
    sha.digest body

/-! ## the id of a conversation -/

def kMaxIdLen : ℕ := 256

/-- printable characters and those above ASCII -/
def sanitizeClientId (raw : String) : String :=
  String.ofList ((raw.toList.filter fun c => 0x20 ≤ c.toNat ∧ c.toNat ≠ 0x7f).take kMaxIdLen)

/-- the first half of a digest -/
def Sha256.short (s : String) : String := String.ofList ((sha.digest s).toList.take 32)

def hashHistory : String :=
  "hist-" ++ sha.short (encode (context messages))

def firstTurnId : String :=
  match messages.getLast? with
  | none => ""
  | some m => "first-" ++ sha.short (m.role ++ ":" ++ m.content)

/-- the id that the client gave, if something is left of it -/
def clientId (req : ChatRequest) : Option String := do
  let metadata ← req.metadata
  let raw ← metadata.lookup "conversation_id"
  if raw = "" ∨ sanitizeClientId raw = "" then none else return sanitizeClientId raw

def resolve (req : ChatRequest) : String :=
  if req.messages.isEmpty then ""
  else
    match clientId req with
    | some id => id
    | none =>
      if 2 ≤ req.messages.length then hashHistory sha req.messages
      else firstTurnId sha req.messages

end

/-! ## prompt and partition -/

/-- what the key is made with: the digest, the hash mode and the summarizer, if there is one -/
structure KeyConfig where
  sha : Sha256
  hashConfig : ConversationHashConfig := {}
  summarizer : Option (List Message → String) := none

structure CacheKeyInfo where
  partitionKey : String := ""
  prompt : String := ""
  conversationHash : String := ""

def promptOf (messages : List Message) : String :=
  (messages.reverse.find? (·.role = "user")).elim "" Message.content

/-- the first system message with a content, hashed -/
def systemHash (sha : Sha256) (messages : List Message) : String :=
  (messages.find? (fun m => m.role = "system" ∧ m.content ≠ "")).elim ""
    (sha.digest ·.content)

section
variable (k : KeyConfig) (messages : List Message) (tenantId conversationId : String)

def KeyConfig.contextHash : String :=
  computeConversationHashV2 k.sha messages k.hashConfig k.summarizer

def KeyConfig.partitionKey : String :=
  k.sha.digest (tenantId ++ "\x1f" ++ conversationId ++ "\x1f" ++ systemHash k.sha messages
    ++ "\x1f" ++ k.contextHash messages)

def extractCacheKeyInfoV2 : CacheKeyInfo :=
  if messages.isEmpty then {}
  else
    { prompt := promptOf messages
      conversationHash := k.contextHash messages
      partitionKey := k.partitionKey messages tenantId conversationId }

end

/-! ## the parts of a partition key -/

section
variable {k : KeyConfig} {messages messages' : List Message}
  {tenantId tenantId' conversationId conversationId' : String}

lemma systemHash_plain (sha : Sha256) (messages : List Message) :
    unitSeparator ∉ (systemHash sha messages).toList := by
  unfold systemHash
  cases messages.find? (fun m => m.role = "system" ∧ m.content ≠ "") with
  | none => simp
  | some m => exact sha.plain m.content

lemma contextHash_plain (k : KeyConfig) (messages : List Message) :
    unitSeparator ∉ (k.contextHash messages).toList := by
  unfold KeyConfig.contextHash computeConversationHashV2
  split
  · simp
  split
  · simp
  · exact k.sha.plain _

lemma partitionRest_inj {c c' : String}
    (h : c.toList ++ unitSeparator :: ((systemHash k.sha messages).toList ++ unitSeparator ::
        (k.contextHash messages).toList) =
      c'.toList ++ unitSeparator :: ((systemHash k.sha messages').toList ++ unitSeparator ::
        (k.contextHash messages').toList)) :
    c = c' ∧ systemHash k.sha messages = systemHash k.sha messages' ∧
      k.contextHash messages = k.contextHash messages' := by
  have hcut : (c.toList ++ unitSeparator :: (systemHash k.sha messages).toList) ++
        unitSeparator :: (k.contextHash messages).toList =
      (c'.toList ++ unitSeparator :: (systemHash k.sha messages').toList) ++
        unitSeparator :: (k.contextHash messages').toList := by
    simpa using h
  obtain ⟨hrest, hcontext⟩ :=
    split_last (contextHash_plain k messages) (contextHash_plain k messages') hcut
  obtain ⟨hconversation, hsystem⟩ :=
    split_last (systemHash_plain k.sha messages) (systemHash_plain k.sha messages') hrest
  exact ⟨String.toList_inj.1 hconversation, String.toList_inj.1 hsystem, String.toList_inj.1 hcontext⟩

lemma toList_partition (k : KeyConfig) (messages : List Message) (t c : String) :
    (t ++ "\x1f" ++ c ++ "\x1f" ++ systemHash k.sha messages ++ "\x1f"
      ++ k.contextHash messages).toList = t.toList ++ unitSeparator :: (c.toList ++ unitSeparator ::
        ((systemHash k.sha messages).toList ++ unitSeparator :: (k.contextHash messages).toList)) := by
  have hsep : "\x1f".toList = [unitSeparator] := by decide
  simp [hsep]

theorem partitionKey_inj (ht : unitSeparator ∉ tenantId.toList)
    (ht' : unitSeparator ∉ tenantId'.toList) (h : k.partitionKey messages tenantId conversationId =
      k.partitionKey messages' tenantId' conversationId') :
    tenantId = tenantId' ∧ conversationId = conversationId' ∧
      systemHash k.sha messages = systemHash k.sha messages' ∧
      k.contextHash messages = k.contextHash messages' := by
  have hblob := congrArg String.toList (k.sha.injective h)
  rw [toList_partition, toList_partition] at hblob
  obtain ⟨htenant, hrest⟩ := split_first ht ht' hblob
  exact ⟨String.toList_inj.1 htenant, partitionRest_inj hrest⟩

lemma partitionKey_inj_tenant
    (h : k.partitionKey messages tenantId conversationId =
      k.partitionKey messages' tenantId conversationId') :
    conversationId = conversationId' ∧ systemHash k.sha messages = systemHash k.sha messages' ∧
      k.contextHash messages = k.contextHash messages' := by
  have hblob := congrArg String.toList (k.sha.injective h)
  rw [toList_partition, toList_partition] at hblob
  exact partitionRest_inj (List.cons.inj (append_cancel_left hblob)).2

end

/-! ## the text of a context -/

section
variable (messages : List Message)

/-- roles and contents, all that a context puts into its key -/
def texts : List (String × String) :=
  messages.map fun m => (m.role, m.content)

/-- a single message, without the byte between role and content -/
def Lone : Prop :=
  messages = [] ∨ ∃ m, messages = [m] ∧ unitSeparator ∉ m.role.toList ∧
    unitSeparator ∉ m.content.toList

/-- roles without separators, and contents without the byte that ends a role -/
def Framed : Prop :=
  ∀ m ∈ messages, unitSeparator ∉ m.role.toList ∧ recordSeparator ∉ m.role.toList ∧
    unitSeparator ∉ m.content.toList

end

def fullHash (sha : Sha256) (windowSize : ℕ) (messages : List Message) : String :=
  computeConversationHashV2 sha messages ⟨.full, windowSize⟩ none

def parts (p : String × String) : List Char × List Char := (p.1.toList, p.2.toList)

lemma parts_injective : Function.Injective parts := by
  intro p q h
  exact Prod.ext (String.toList_inj.1 (congrArg Prod.fst h)) (String.toList_inj.1 (congrArg Prod.snd h))

section
variable {messages other : List Message}

lemma toList_encode (messages : List Message) :
    (encode messages).toList =
      records unitSeparator recordSeparator ((texts messages).map parts) := by
  have hunit : "\x1f".toList = [unitSeparator] := by decide
  have hrecord : "\x1e".toList = [recordSeparator] := by decide
  unfold encode records texts
  rw [String.toList_join, map_map, flatMap_map, flatMap_map]
  congr 1
  funext m
  simp [record, parts, hunit, hrecord]

lemma fullHash_eq (sha : Sha256) (windowSize : ℕ) (messages : List Message) :
    fullHash sha windowSize messages =
      if context messages = [] then "" else sha.digest (encode (context messages)) := by
  cases messages with
  | nil => rfl
  | cons m ms => simp [fullHash, computeConversationHashV2]

lemma fullHash_eq_iff (sha : Sha256) (windowSize : ℕ) :
    fullHash sha windowSize other = fullHash sha windowSize messages ↔
      records unitSeparator recordSeparator ((texts (context other)).map parts) =
        records unitSeparator recordSeparator ((texts (context messages)).map parts) := by
  rw [← toList_encode, ← toList_encode, String.toList_inj, fullHash_eq, fullHash_eq]
  have hempty : ∀ ms : List Message, encode ms = "" ↔ ms = [] := by
    intro ms
    rw [← String.toList_inj, toList_encode]
    constructor
    · intro h
      by_contra hne
      exact records_ne_nil (by simpa [texts] using hne) h
    · rintro rfl
      rfl
  by_cases ho : context other = []
  · by_cases hm : context messages = []
    · rw [if_pos ho, if_pos hm, ho, hm]
      exact ⟨fun _ => rfl, fun _ => rfl⟩
    · rw [if_pos ho, if_neg hm, ho]
      refine ⟨fun h => absurd h.symm (sha.nonempty _), fun h => ?_⟩
      exact absurd ((hempty _).1 (h.symm.trans ((hempty []).2 rfl))) hm
  · by_cases hm : context messages = []
    · rw [if_neg ho, if_pos hm, hm]
      refine ⟨fun h => absurd h (sha.nonempty _), fun h => ?_⟩
      exact absurd ((hempty _).1 (h.trans ((hempty []).2 rfl))) ho
    · rw [if_neg ho, if_neg hm]
      exact sha.injective.eq_iff

lemma exists_context (l : List (String × String)) : ∃ messages, texts (context messages) = l := by
  refine ⟨l.map (fun p => { role := p.1, content := p.2 }) ++ [{ role := "user" }], ?_⟩
  have hlast : ∀ ms : List Message, context (ms ++ [{ role := "user" }]) = ms := by
    intro ms
    simp [context]
  rw [hlast, texts, map_map]
  exact map_id l

lemma map_parts_inj {l l' : List (String × String)} : l.map parts = l'.map parts ↔ l = l' :=
  (map_injective_iff.2 parts_injective).eq_iff

lemma map_parts_surjective (l : List (List Char × List Char)) :
    ∃ l' : List (String × String), l'.map parts = l := by
  refine ⟨l.map fun r => (String.ofList r.1, String.ofList r.2), ?_⟩
  have hid : parts ∘ (fun r : List Char × List Char => (String.ofList r.1, String.ofList r.2)) = id := by
    funext r
    simp [parts]
  rw [map_map, hid, map_id]

lemma framed_parts (h : Framed messages) :
    Separator.Framed unitSeparator recordSeparator ((texts messages).map parts) := by
  intro r hr
  obtain ⟨p, hp, rfl⟩ := mem_map.1 hr
  obtain ⟨m, hm, rfl⟩ := mem_map.1 hp
  exact h m hm

lemma lone_iff_parts : Lone messages ↔ (texts messages).map parts = [] ∨
    ∃ r, (texts messages).map parts = [r] ∧ unitSeparator ∉ r.1 ∧ unitSeparator ∉ r.2 := by
  cases messages with
  | nil => exact ⟨fun _ => .inl rfl, fun _ => .inl rfl⟩
  | cons m ms =>
    cases ms with
    | nil => simp [Lone, texts, parts]
    | cons m' ms => simp [Lone, texts]

end

/-- A context has its key to itself only when it is empty or one message without the first
separator. Contexts with the separators in no role, and the first in no content, have different
keys. -/
theorem conversation_key_iff (sha : Sha256) (windowSize : ℕ) :
    (∀ messages, (∀ other, fullHash sha windowSize other = fullHash sha windowSize messages →
        texts (context other) = texts (context messages)) ↔ Lone (context messages)) ∧
      ∀ messages other, Framed (context messages) → Framed (context other) →
        fullHash sha windowSize other = fullHash sha windowSize messages →
          texts (context other) = texts (context messages) := by
  have hsep : unitSeparator ≠ recordSeparator := by decide
  constructor
  · intro messages
    rw [lone_iff_parts, ← records_unique_iff hsep]
    constructor
    · intro h l hl
      obtain ⟨l', rfl⟩ := map_parts_surjective l
      obtain ⟨other, rfl⟩ := exists_context l'
      rw [h other ((fullHash_eq_iff sha windowSize).2 hl)]
    · intro h other hother
      exact map_parts_inj.1 (h _ ((fullHash_eq_iff sha windowSize).1 hother))
  · intro messages other hmessages hother h
    exact map_parts_inj.1 (records_injOn hsep _ _ (framed_parts hother)
      (framed_parts hmessages) ((fullHash_eq_iff sha windowSize).1 h))

/-- a content that ends one message and begins another -/
def oneTurn : List Message :=
  [{ role := "user", content := "a\x1eassistant\x1fb" }, { role := "user", content := "c" }]

def twoTurns : List Message :=
  [{ role := "user", content := "a" }, { role := "assistant", content := "b" },
    { role := "user", content := "c" }]

theorem two_contexts_one_key : texts (context twoTurns) ≠ texts (context oneTurn) ∧
    ∀ sha windowSize, fullHash sha windowSize twoTurns = fullHash sha windowSize oneTurn := by
  refine ⟨by decide, fun sha windowSize => (fullHash_eq_iff sha windowSize).2 ?_⟩
  decide

end AegisGate.Cache
