import AegisGate.Guardrail.Inbound
import AegisGate.Lib.Position

/-!
# Client fields that take a message out of the scan

A message with tool calls counts as a tool message whatever its role, and every scanning loop skips
tool messages.  Tool calls are a field of the request body, so a client can add them to a user
message; its text still goes upstream.

* `prepared`  the context a stage sees, with or without the preprocessor before it;
* `Rejects`, `Masks`, `Blocks`  what the three guardrails do to a list of messages;
* `Acts`  … because of one message: they would not without it;
* `Preserved`  what they do because of a message, they still do when it has more fields.
-/

namespace AegisGate

open List InjectionDetector Json Position Except

/-! ## the scan of a list of messages -/

section
variable (sc : Scanner) (pre : Option Preprocessor)

/-- the context after the optional preprocessing stage, `none` when that stage rejects -/
def prepared (ctx : ScanContext) : Except TypeError (Option ScanContext) :=
  match pre with
  | none => .ok (some ctx)
  | some p => p.process sc ctx

def admits (m : Message) : Bool :=
  match pre with
  | none => true
  | some p =>
    match p.preprocessOne sc m with
    | .ok (some _) => true
    | _ => false

def normalized (p : Preprocessor) (m : Message) : Bytes × Bytes :=
  match p.preprocessOne sc m with
  | .ok (some x) => x
  | _ => ([], [])

def scanOf (m : Message) : Scanned :=
  match pre with
  | none => ⟨m, bytes m.content, sc.imageRefText m.contentParts kDefaultImageScanDecodeBytes⟩
  | some p => ⟨m, (normalized sc p m).1, .ok (normalized sc p m).2⟩

end

section
variable {sc : Scanner} {ms : List Message} {p : Preprocessor} {pre : Option Preprocessor}

lemma view_eq_map (sc : Scanner) (ctx : ScanContext) (f : Message → Scanned)
    (h : ∀ i m, ctx.messages[i]? = some m →
      (⟨m, scanText ctx i, scanImageText sc ctx i⟩ : Scanned) = f m) :
    view sc ctx = ctx.messages.map f := by
  apply ext_getElem?
  intro i
  unfold view
  rw [getElem?_map, getElem?_map]
  cases hm : ctx.messages[i]? with
  | none =>
    have hlen : ctx.messages.length ≤ i := List.getElem?_eq_none_iff.1 hm
    rw [getElem?_eq_none (by simpa using hlen)]
    rfl
  | some m =>
    have hlt : i < ctx.messages.length := (List.getElem?_eq_some_iff.1 hm).1
    have hget : ctx.messages.getD i {} = m := by rw [List.getD, hm]; rfl
    rw [getElem?_range hlt, Option.map_some, Option.map_some, hget, h i m hm]

lemma preprocessLoop_eq_some {xs : List (Bytes × Bytes)}
    (h : p.preprocessLoop sc ms = .ok (some xs)) :
    (∀ m ∈ ms, admits sc (some p) m) ∧ xs = ms.map (normalized sc p) := by
  induction ms generalizing xs with
  | nil =>
    cases h
    exact ⟨by simp, rfl⟩
  | cons m ms ih =>
    unfold Preprocessor.preprocessLoop at h
    cases hm : p.preprocessOne sc m with
    | error e =>
      rw [hm] at h
      cases h
    | ok r =>
      rw [hm] at h
      cases r with
      | none => cases h
      | some x =>
        cases hl : p.preprocessLoop sc ms with
        | error e =>
          rw [hl] at h
          cases h
        | ok r =>
          rw [hl] at h
          cases r with
          | none => cases h
          | some ys =>
            cases h
            obtain ⟨hadm, rfl⟩ := ih hl
            refine ⟨fun m' hm' => ?_, by simp [normalized, hm]⟩
            rcases mem_cons.1 hm' with rfl | hm'
            · simp [admits, hm]
            · exact hadm m' hm'

lemma preprocessLoop_of_admits (h : ∀ m ∈ ms, admits sc (some p) m) :
    ∃ xs, p.preprocessLoop sc ms = .ok (some xs) := by
  induction ms with
  | nil => exact ⟨[], rfl⟩
  | cons m ms ih =>
    obtain ⟨xs, hxs⟩ := ih fun m' hm' => h m' (mem_cons_of_mem m hm')
    have hm := h m mem_cons_self
    unfold admits at hm
    dsimp only at hm
    split at hm
    · next x hx =>
      refine ⟨x :: xs, ?_⟩
      unfold Preprocessor.preprocessLoop
      rw [hx, hxs]
      rfl
    · cases hm

lemma prepared_spec (ctx : ScanContext) {ctx' : ScanContext}
    (hraw : ctx.inputPreprocessed = false) (h : prepared sc pre ctx = .ok (some ctx')) :
    (∀ m ∈ ctx.messages, admits sc pre m) ∧ view sc ctx' = ctx.messages.map (scanOf sc pre)
      ∧ ctx'.model = ctx.model ∧ ctx'.targetModel = ctx.targetModel
      ∧ (ctx'.inputPreprocessed && ctx'.normalizedMessages.length == ctx'.messages.length)
        = pre.isSome := by
  cases pre with
  | none =>
    cases h
    refine ⟨fun _ _ => rfl, ?_, rfl, rfl, by simp [hraw]⟩
    apply view_eq_map
    intro i m hm
    simp [scanText, scanImageText, hraw, scanOf, List.getD, hm]
  | some p =>
    unfold prepared Preprocessor.process at h
    cases hl : p.preprocessLoop sc ctx.messages with
    | error e =>
      simp only [hl] at h
      cases h
    | ok r =>
      cases r with
      | none =>
        simp only [hl] at h
        cases h
      | some xs =>
        simp only [hl] at h
        cases h
        obtain ⟨hadm, rfl⟩ := preprocessLoop_eq_some hl
        refine ⟨hadm, ?_, rfl, rfl, by simp⟩
        apply view_eq_map
        intro i m hm
        simp [scanText, scanImageText, scanOf, List.getD, hm]

lemma prepared_of_admits (ctx : ScanContext) (h : ∀ m ∈ ctx.messages, admits sc pre m) :
    ∃ ctx', prepared sc pre ctx = .ok (some ctx') := by
  cases pre with
  | none => exact ⟨ctx, rfl⟩
  | some p =>
    obtain ⟨xs, hxs⟩ := preprocessLoop_of_admits h
    refine ⟨{ ctx with
      normalizedMessages := xs.map Prod.fst
      imageScanMessages := xs.map Prod.snd
      inputPreprocessed := true }, ?_⟩
    unfold prepared Preprocessor.process
    simp only [hxs]
    rfl

end

/-! ## skipping and replacing one message -/

/-- two rounds no loop can tell apart -/
structure SameScan (s s' : Scanned) : Prop where
  tool : isToolMessage s'.msg = isToolMessage s.msg
  role : s'.msg.role = s.msg.role
  content : s'.msg.content = s.msg.content
  text : s'.text = s.text
  image : s'.image = s.image

section
variable {v₁ v₂ : List Scanned} {s s' : Scanned} (patterns : List MaskPattern)
  (d : InjectionDetector) (un : Bool)

lemma scanLoop_skip (hs : isToolMessage s.msg) :
    d.scanLoop (v₁ ++ s :: v₂) = d.scanLoop (v₁ ++ v₂) := by
  induction v₁ with
  | nil => simp [scanLoop, hs]
  | cons u v₁ ih =>
    rw [cons_append, cons_append, scanLoop, scanLoop, ih]

lemma scanLoop_same (hs : SameScan s s') :
    d.scanLoop (v₁ ++ s' :: v₂) = d.scanLoop (v₁ ++ s :: v₂) := by
  induction v₁ with
  | nil =>
    simp [scanLoop, flags, hs.tool, hs.text, hs.image]
  | cons u v₁ ih =>
    rw [cons_append, cons_append, scanLoop, scanLoop, ih]

lemma extractText_skip (hs : isToolMessage s.msg) :
    RuleEngine.extractText (v₁ ++ s :: v₂) = RuleEngine.extractText (v₁ ++ v₂) := by
  have hstep : ∀ t, RuleEngine.appendScanned t s = .ok t := by
    intro t
    simp [RuleEngine.appendScanned, hs]
  unfold RuleEngine.extractText
  rw [foldlM_append, foldlM_append]
  simp only [foldlM_cons, hstep]
  rfl

lemma extractText_same (hs : SameScan s s') :
    RuleEngine.extractText (v₁ ++ s' :: v₂) = RuleEngine.extractText (v₁ ++ s :: v₂) := by
  have hstep : ∀ t, RuleEngine.appendScanned t s' = RuleEngine.appendScanned t s := by
    intro t
    simp [RuleEngine.appendScanned, hs.tool, hs.text, hs.image]
  unfold RuleEngine.extractText
  rw [foldlM_append, foldlM_append]
  simp only [foldlM_cons, hstep]

lemma maskLoop_cons_inv {v : List Scanned} {out : List Bytes}
    (h : InboundPii.maskLoop patterns un (s :: v) = .ok (some out)) :
    ∃ c o, InboundPii.maskLoop patterns un v = .ok (some o) ∧ out = c :: o
      ∧ (isToolMessage s.msg → c = bytes s.msg.content) := by
  rw [InboundPii.maskLoop] at h
  split at h
  · obtain ⟨r, hr, h⟩ := bind_eq_ok h
    cases r with
    | none => cases h
    | some o =>
      cases h
      exact ⟨_, o, hr, rfl, fun _ => rfl⟩
  · next hskip =>
    obtain ⟨image, -, h⟩ := bind_eq_ok h
    split at h
    · cases h
    · obtain ⟨r, hr, h⟩ := bind_eq_ok h
      cases r with
      | none => cases h
      | some o =>
        cases h
        exact ⟨_, o, hr, rfl, fun ht => absurd (.inr ht) hskip⟩

lemma maskLoop_skip (hs : isToolMessage s.msg) {out : List Bytes}
    (h : InboundPii.maskLoop patterns un (v₁ ++ s :: v₂) = .ok (some out)) :
    out.getD v₁.length [] = bytes s.msg.content := by
  induction v₁ generalizing out with
  | nil =>
    obtain ⟨c, o, -, rfl, hc⟩ := maskLoop_cons_inv patterns un h
    exact hc hs
  | cons u v₁ ih =>
    obtain ⟨c, o, ho, rfl, -⟩ := maskLoop_cons_inv patterns un h
    exact ih ho

lemma maskLoop_same (hs : SameScan s s') :
    InboundPii.maskLoop patterns un (v₁ ++ s' :: v₂)
      = InboundPii.maskLoop patterns un (v₁ ++ s :: v₂) := by
  induction v₁ with
  | nil =>
    simp [InboundPii.maskLoop, InboundPii.maskContent, hs.tool, hs.role, hs.content, hs.text,
      hs.image]
  | cons u v₁ ih =>
    rw [cons_append, cons_append, InboundPii.maskLoop, InboundPii.maskLoop, ih]

end

/-! ## what the guardrails do to a request -/

/-- the configuration of the three guardrails and of the stage before them -/
structure Guardrails where
  scanner : Scanner
  preprocessor : Option Preprocessor
  detector : InjectionDetector
  piiPatterns : List MaskPattern
  customRules : Bool
  rules : List Rule
  model : String
  targetModel : String

namespace Guardrails

variable (g : Guardrails)

section
variable (msgs : List Message)

def context : ScanContext :=
  { messages := msgs, model := g.model, targetModel := g.targetModel }

def Sees (ctx : ScanContext) : Prop :=
  prepared g.scanner g.preprocessor (g.context msgs) = .ok (some ctx)

def Rejects : Prop :=
  ∃ ctx, g.Sees msgs ctx ∧ g.detector.process g.scanner ctx = .ok .reject

def Blocks : Prop :=
  ∃ ctx, g.Sees msgs ctx ∧ RuleEngine.process g.scanner g.customRules g.rules ctx = .ok .reject

/-- the request passes the PII stage with another content of message `i` -/
def Masks (i : Nat) : Prop :=
  ∃ ctx out, g.Sees msgs ctx ∧ InboundPii.process g.scanner g.piiPatterns ctx = .ok (some out)
    ∧ out.getD i [] ≠ bytes (msgs.getD i {}).content

/-- the injection detector rejects because of message `i`: without it, it does not -/
def RejectsFor (i : Nat) : Prop :=
  g.Rejects msgs ∧ ¬ g.Rejects (msgs.eraseIdx i)

def BlocksFor (i : Nat) : Prop :=
  g.Blocks msgs ∧ ¬ g.Blocks (msgs.eraseIdx i)

def Acts (i : Nat) : Prop :=
  g.RejectsFor msgs i ∨ g.Masks msgs i ∨ g.BlocksFor msgs i

end

structure Preserved (msgs msgs' : List Message) (i : Nat) : Prop where
  rejects : g.RejectsFor msgs i → g.Rejects msgs'
  masks : g.Masks msgs i → g.Masks msgs' i
  blocks : g.BlocksFor msgs i → g.Blocks msgs'

/-! ## one message replaced -/

variable {g} {a b : List Message} {m m' : Message} {msgs : List Message} {ctx : ScanContext}

lemma sees_spec (h : g.Sees msgs ctx) :
    (∀ x ∈ msgs, admits g.scanner g.preprocessor x)
      ∧ view g.scanner ctx = msgs.map (scanOf g.scanner g.preprocessor)
      ∧ ctx.model = g.model ∧ ctx.targetModel = g.targetModel
      ∧ (ctx.inputPreprocessed && ctx.normalizedMessages.length == ctx.messages.length)
        = g.preprocessor.isSome :=
  prepared_spec (g.context msgs) rfl h

lemma exists_sees (h : ∀ x ∈ msgs, admits g.scanner g.preprocessor x) : ∃ ctx, g.Sees msgs ctx :=
  prepared_of_admits (g.context msgs) h

lemma exists_sees_imp {msgs' : List Message} {P P' : ScanContext → Prop}
    (hadm : (∀ x ∈ msgs, admits g.scanner g.preprocessor x) →
      ∀ x ∈ msgs', admits g.scanner g.preprocessor x)
    (hP : ∀ ctx ctx', g.Sees msgs ctx → g.Sees msgs' ctx' → P ctx → P' ctx') :
    (∃ ctx, g.Sees msgs ctx ∧ P ctx) → ∃ ctx, g.Sees msgs' ctx ∧ P' ctx := by
  rintro ⟨ctx, hs, hp⟩
  obtain ⟨ctx', hs'⟩ := exists_sees (hadm (sees_spec hs).1)
  exact ⟨ctx', hs', hP ctx ctx' hs hs' hp⟩

lemma scanOf_msg (sc : Scanner) (pre : Option Preprocessor) (x : Message) :
    (scanOf sc pre x).msg = x := by
  cases pre <;> rfl

lemma view_split (h : g.Sees (a ++ m' :: b) ctx) :
    view g.scanner ctx = a.map (scanOf g.scanner g.preprocessor)
      ++ scanOf g.scanner g.preprocessor m' :: b.map (scanOf g.scanner g.preprocessor) := by
  rw [(sees_spec h).2.1, map_append, map_cons]

lemma view_append (h : g.Sees (a ++ b) ctx) :
    view g.scanner ctx = a.map (scanOf g.scanner g.preprocessor)
      ++ b.map (scanOf g.scanner g.preprocessor) := by
  rw [(sees_spec h).2.1, map_append]

lemma admits_erase (h : ∀ x ∈ a ++ m' :: b, admits g.scanner g.preprocessor x) :
    ∀ x ∈ a ++ b, admits g.scanner g.preprocessor x := by
  intro x hx
  apply h x
  simp only [mem_append, mem_cons] at hx ⊢
  tauto

section
variable (ht : isToolMessage m')
include ht

lemma rejects_of_tool (h : g.Rejects (a ++ m' :: b)) : g.Rejects (a ++ b) := by
  refine exists_sees_imp admits_erase (fun ctx ctx' hs hs' hp => ?_) h
  unfold process verdict at hp ⊢
  rw [view_split hs, scanLoop_skip g.detector (by rw [scanOf_msg]; exact ht)] at hp
  rw [view_append hs']
  exact hp

lemma blocks_of_tool (h : g.Blocks (a ++ m' :: b)) : g.Blocks (a ++ b) := by
  refine exists_sees_imp admits_erase (fun ctx ctx' hs hs' hp => ?_) h
  unfold RuleEngine.process RuleEngine.evaluateImpl at hp ⊢
  rw [view_split hs, extractText_skip (by rw [scanOf_msg]; exact ht), (sees_spec hs).2.2.1,
    (sees_spec hs).2.2.2.1] at hp
  rw [view_append hs', (sees_spec hs').2.2.1, (sees_spec hs').2.2.2.1]
  exact hp

lemma not_masks_of_tool : ¬ g.Masks (a ++ m' :: b) a.length := by
  rintro ⟨ctx, out, hs, hout, hne⟩
  unfold InboundPii.process at hout
  rw [view_split hs] at hout
  have h := maskLoop_skip g.piiPatterns _ (by rw [scanOf_msg]; exact ht) hout
  rw [length_map, scanOf_msg] at h
  rw [getD_split] at hne
  exact hne h

end

/-! ## a message with the same scan -/

/-- two messages that differ only in fields the stages do not read -/
structure SameMessage (m m' : Message) : Prop where
  tool : isToolMessage m' = isToolMessage m
  role : m'.role = m.role
  content : m'.content = m.content
  parts : m'.contentParts = m.contentParts

lemma preprocessOne_same (sc : Scanner) (p : Preprocessor) (h : SameMessage m m') :
    p.preprocessOne sc m' = p.preprocessOne sc m := by
  unfold Preprocessor.preprocessOne
  rw [h.tool, h.content, h.parts]

lemma admits_same (sc : Scanner) (pre : Option Preprocessor) (h : SameMessage m m') :
    admits sc pre m' = admits sc pre m := by
  cases pre with
  | none => rfl
  | some p => simp only [admits, preprocessOne_same sc p h]

lemma scanOf_same (sc : Scanner) (pre : Option Preprocessor) (h : SameMessage m m') :
    SameScan (scanOf sc pre m) (scanOf sc pre m') := by
  refine ⟨?_, ?_, ?_, ?_, ?_⟩
  · rw [scanOf_msg, scanOf_msg, h.tool]
  · rw [scanOf_msg, scanOf_msg, h.role]
  · rw [scanOf_msg, scanOf_msg, h.content]
  · cases pre with
    | none => simp only [scanOf, h.content]
    | some p => simp only [scanOf, normalized, preprocessOne_same sc p h]
  · cases pre with
    | none => simp only [scanOf, h.parts]
    | some p => simp only [scanOf, normalized, preprocessOne_same sc p h]

lemma admits_replace (h : SameMessage m m')
    (hadm : ∀ x ∈ a ++ m :: b, admits g.scanner g.preprocessor x) :
    ∀ x ∈ a ++ m' :: b, admits g.scanner g.preprocessor x := by
  refine forall_mem_replace hadm ?_
  rw [admits_same _ _ h]
  exact hadm m (mem_append_right _ mem_cons_self)

lemma preserved_of_same (h : SameMessage m m') :
    g.Preserved (a ++ m :: b) (a ++ m' :: b) a.length := by
  have hscan := scanOf_same g.scanner g.preprocessor h
  refine ⟨fun hr => ?_, ?_, fun hb => ?_⟩
  · refine exists_sees_imp (admits_replace h) (fun ctx ctx' hs hs' hp => ?_) hr.1
    unfold process verdict at hp ⊢
    rw [view_split hs', scanLoop_same g.detector hscan, ← view_split hs]
    exact hp
  · rintro ⟨ctx, out, hs, hout, hne⟩
    obtain ⟨ctx', hs'⟩ := exists_sees (admits_replace h (sees_spec hs).1)
    refine ⟨ctx', out, hs', ?_, ?_⟩
    · unfold InboundPii.process at hout ⊢
      rw [(sees_spec hs').2.2.2.2, view_split hs', maskLoop_same g.piiPatterns _ hscan,
        ← view_split hs, ← (sees_spec hs).2.2.2.2]
      exact hout
    · rw [getD_split] at hne ⊢
      rw [h.content]
      exact hne
  · refine exists_sees_imp (admits_replace h) (fun ctx ctx' hs hs' hp => ?_) hb.1
    unfold RuleEngine.process RuleEngine.evaluateImpl at hp ⊢
    rw [view_split hs', extractText_same hscan, ← view_split hs, (sees_spec hs').2.2.1,
      (sees_spec hs').2.2.2.1, ← (sees_spec hs).2.2.1, ← (sees_spec hs).2.2.2.1]
    exact hp

lemma not_preserved_of_tool (ht : isToolMessage m') (hact : g.Acts (a ++ m :: b) a.length) :
    ¬ g.Preserved (a ++ m :: b) (a ++ m' :: b) a.length := by
  intro h
  rcases hact with hr | hm | hb
  · have hno := hr.2
    rw [eraseIdx_split] at hno
    exact hno (rejects_of_tool ht (h.rejects hr))
  · exact not_masks_of_tool ht (h.masks hm)
  · have hno := hb.2
    rw [eraseIdx_split] at hno
    exact hno (blocks_of_tool ht (h.blocks hb))

lemma not_acts_of_tool (ht : isToolMessage m) : ¬ g.Acts (a ++ m :: b) a.length := by
  rintro (hr | hm | hb)
  · have hno := hr.2
    rw [eraseIdx_split] at hno
    exact hno (rejects_of_tool ht hr.1)
  · exact not_masks_of_tool ht hm
  · have hno := hb.2
    rw [eraseIdx_split] at hno
    exact hno (blocks_of_tool ht hb.1)

end Guardrails

/-! ## the fields of a request body -/

def clientFields : List String := ["tool_calls", "tool_call_id", "name"]

/-- the added fields bring a tool call: a non-empty array, where there was no `tool_calls` -/
def addsToolCalls (l extra : List (String × Json)) : Bool :=
  match l.lookup "tool_calls", extra.lookup "tool_calls" with
  | none, some (.arr (_ :: _)) => true
  | _, _ => false

section
variable {l extra : List (String × Json)} {m m' : Message}

lemma lookup_extra (hx : ∀ kv ∈ extra, kv.1 ∈ clientFields) {k : String}
    (hk : k ∉ clientFields) : (l ++ extra).lookup k = l.lookup k := by
  have hnone : extra.lookup k = none := by
    rw [lookup_eq_none_iff]
    intro kv hkv
    have hne : k ≠ kv.1 := fun e => hk (e ▸ hx kv hkv)
    simpa using hne
  rw [lookup_append, hnone, Option.or_none]

lemma parseMessage_inv {j : Json} (h : parseMessage j = .ok m) :
    j.valueStr "role" "user" = .ok m.role ∧ parseContent j = .ok (m.content, m.contentParts)
      ∧ parseToolCalls j = .ok m.toolCalls := by
  obtain ⟨role, hr, h⟩ := bind_eq_ok h
  obtain ⟨⟨content, parts⟩, hc, h⟩ := bind_eq_ok h
  obtain ⟨toolCalls, ht, h⟩ := bind_eq_ok h
  obtain ⟨toolCallId, -, h⟩ := bind_eq_ok h
  obtain ⟨name, -, h⟩ := bind_eq_ok h
  cases h
  exact ⟨hr, hc, ht⟩

lemma mapM_cons_ne_nil {x : Json} {xs : List Json} {ys : List ToolCall}
    (h : (x :: xs).mapM parseToolCall = .ok ys) : ys ≠ [] := by
  rw [mapM_cons] at h
  obtain ⟨y, -, h⟩ := bind_eq_ok h
  obtain ⟨ys', -, h⟩ := bind_eq_ok h
  cases h
  simp

variable (hx : ∀ kv ∈ extra, kv.1 ∈ clientFields)
  (h : parseMessage (.obj l) = .ok m) (h' : parseMessage (.obj (l ++ extra)) = .ok m')
include hx h h'

lemma parse_extra_same :
    m'.role = m.role ∧ m'.content = m.content ∧ m'.contentParts = m.contentParts := by
  obtain ⟨hr, hc, -⟩ := parseMessage_inv h
  obtain ⟨hr', hc', -⟩ := parseMessage_inv h'
  have er : (Json.obj (l ++ extra)).valueStr "role" "user" = (Json.obj l).valueStr "role" "user" := by
    simp only [Json.valueStr, lookup_extra hx (by decide : "role" ∉ clientFields)]
  have ec : parseContent (.obj (l ++ extra)) = parseContent (.obj l) := by
    simp only [parseContent, Json.find?, lookup_extra hx (by decide : "content" ∉ clientFields)]
  rw [er, hr] at hr'
  rw [ec, hc] at hc'
  have hrole := ok.inj hr'
  obtain ⟨hcontent, hparts⟩ := Prod.mk.inj (ok.inj hc')
  exact ⟨hrole.symm, hcontent.symm, hparts.symm⟩

lemma parse_extra_tool (hm : isToolMessage m = false) :
    isToolMessage m' = addsToolCalls l extra := by
  obtain ⟨-, -, ht⟩ := parseMessage_inv h
  obtain ⟨-, -, ht'⟩ := parseMessage_inv h'
  have hrole := (parse_extra_same hx h h').1
  have hm' : m.role ≠ "tool" ∧ m.toolCalls = [] := by simpa [isToolMessage] using hm
  have hiff : isToolMessage m' = !m'.toolCalls.isEmpty := by
    simp [isToolMessage, hrole, hm'.1]
  rw [hiff]
  have e : (l ++ extra).lookup "tool_calls"
      = (l.lookup "tool_calls").or (extra.lookup "tool_calls") := lookup_append
  unfold addsToolCalls
  simp only [parseToolCalls, Json.find?, e] at ht ht'
  cases hl : l.lookup "tool_calls" with
  | some v =>
    rw [hl] at ht ht'
    rw [Option.some_or, ht] at ht'
    rw [← ok.inj ht', hm'.2]
    rfl
  | none =>
    rw [hl, Option.none_or] at ht'
    split at ht'
    · next js hjs =>
      rw [hjs]
      cases js with
      | nil =>
        rw [← ok.inj ht']
        rfl
      | cons x xs =>
        have hne := mapM_cons_ne_nil ht'
        simpa using hne
    · next hno =>
      rw [← ok.inj ht']
      split
      · next hc => exact absurd hc (hno _)
      · rfl

end

lemma parseChatRequest_messages {j : Json} {r : ChatRequest} (h : parseChatRequest j = .ok r) :
    ((j.find? "messages").getD .null).elems.mapM parseMessage = .ok r.messages := by
  obtain ⟨model, -, h⟩ := bind_eq_ok h
  obtain ⟨messages, hm, h⟩ := bind_eq_ok h
  obtain ⟨temperature, -, h⟩ := bind_eq_ok h
  obtain ⟨maxTokens, -, h⟩ := bind_eq_ok h
  obtain ⟨stream, -, h⟩ := bind_eq_ok h
  cases h
  exact hm

lemma mapM_split {js1 js2 : List Json} {x : Json} {msgs : List Message}
    (h : (js1 ++ x :: js2).mapM parseMessage = .ok msgs) :
    ∃ a m b, js1.mapM parseMessage = .ok a ∧ parseMessage x = .ok m
      ∧ js2.mapM parseMessage = .ok b ∧ msgs = a ++ m :: b := by
  rw [mapM_append, mapM_cons] at h
  obtain ⟨a, ha, h⟩ := bind_eq_ok h
  obtain ⟨mb, hmb, h⟩ := bind_eq_ok h
  obtain ⟨m, hm, hmb⟩ := bind_eq_ok hmb
  obtain ⟨b, hb, hmb⟩ := bind_eq_ok hmb
  cases h
  cases hmb
  exact ⟨a, m, b, ha, hm, hb, rfl⟩

lemma mapM_length {js : List Json} {msgs : List Message}
    (h : js.mapM parseMessage = .ok msgs) : msgs.length = js.length := by
  induction js generalizing msgs with
  | nil =>
    cases h
    rfl
  | cons x js ih =>
    rw [mapM_cons] at h
    obtain ⟨m, -, h⟩ := bind_eq_ok h
    obtain ⟨ms, hms, h⟩ := bind_eq_ok h
    cases h
    rw [length_cons, length_cons, ih hms]

/-- the text of message `i` goes upstream as it did before -/
def StillSent (msgs msgs' : List Message) (i : Nat) : Prop :=
  (msgs'.getD i {}).upstreamContent = (msgs.getD i {}).upstreamContent

/-- A guardrail acts on a request because of one message. With fields added to that message it still
does, unless they bring a tool call. -/
theorem guardrails_survive_iff (g : Guardrails) {j j' : Json} {r r' : ChatRequest}
    {js₁ js₂ : List Json} {l extra : List (String × Json)}
    (hj : j.find? "messages" = some (.arr (js₁ ++ .obj l :: js₂)))
    (hj' : j'.find? "messages" = some (.arr (js₁ ++ .obj (l ++ extra) :: js₂)))
    (hx : ∀ kv ∈ extra, kv.1 ∈ clientFields)
    (hr : parseChatRequest j = .ok r) (hr' : parseChatRequest j' = .ok r')
    (hact : g.Acts r.messages js₁.length) : (StillSent r.messages r'.messages js₁.length →
        g.Preserved r.messages r'.messages js₁.length)
      ↔ (StillSent r.messages r'.messages js₁.length → addsToolCalls l extra = false) := by
  have hm := parseChatRequest_messages hr
  have hm' := parseChatRequest_messages hr'
  rw [hj] at hm
  rw [hj'] at hm'
  obtain ⟨a, m, b, ha, hpm, hb, e⟩ := mapM_split hm
  obtain ⟨a', m', b', ha', hpm', hb', e'⟩ := mapM_split hm'
  -- the other messages are parsed from the same values
  obtain rfl := ok.inj (ha.symm.trans ha')
  obtain rfl := ok.inj (hb.symm.trans hb')
  rw [e, ← mapM_length ha] at hact
  rw [e, e', ← mapM_length ha]
  have hnt : isToolMessage m = false := by
    cases ht : isToolMessage m with
    | false => rfl
    | true => exact absurd hact (Guardrails.not_acts_of_tool ht)
  have htool := parse_extra_tool hx hpm hpm' hnt
  refine imp_congr_right fun _ => ⟨fun hp => ?_, fun hadds => ?_⟩
  · cases hadds : addsToolCalls l extra with
    | false => rfl
    | true => exact absurd hp (Guardrails.not_preserved_of_tool (htool.trans hadds) hact)
  · obtain ⟨hrole, hcontent, hparts⟩ := parse_extra_same hx hpm hpm'
    apply Guardrails.preserved_of_same
    exact ⟨by rw [htool, hadds, hnt], hrole, hcontent, hparts⟩

def oneKeyword : Guardrails where
  scanner := ⟨id, fun _ => [], fun _ _ => .ok []⟩
  preprocessor := none
  detector := { keywords := ["hack"], loaded := true }
  piiPatterns := []
  customRules := false
  rules := []
  model := "m"
  targetModel := ""

def userFields : List (String × Json) := [("role", .str "user"), ("content", .str "hack")]

def oneMessage (fields : List (String × Json)) : Json :=
  .obj [("model", .str "m"), ("messages", .arr ([] ++ .obj fields :: []))]

lemma oneKeyword_rejects : oneKeyword.RejectsFor [{ role := "user", content := "hack" }] 0 := by
  refine ⟨⟨_, rfl, by rfl⟩, ?_⟩
  rintro ⟨ctx, hs, hp⟩
  cases hs
  cases hp

theorem guardrails_survive_name :
    ∃ r r', parseChatRequest (oneMessage userFields) = .ok r
      ∧ parseChatRequest (oneMessage (userFields ++ [("name", .str "bob")])) = .ok r'
      ∧ oneKeyword.Preserved r.messages r'.messages 0 := by
  refine ⟨_, _, rfl, rfl, ?_⟩
  have hj : (oneMessage userFields).find? "messages"
      = some (.arr ([] ++ .obj userFields :: [])) := rfl
  have hj' : (oneMessage (userFields ++ [("name", .str "bob")])).find? "messages"
      = some (.arr ([] ++ .obj (userFields ++ [("name", .str "bob")]) :: [])) := rfl
  exact (guardrails_survive_iff oneKeyword hj hj' (by decide) rfl rfl
    (.inl oneKeyword_rejects)).2 (fun _ => rfl) rfl

/-- An empty tool call on a user message: its text goes upstream as before, and the detector that
rejected it no longer looks at it. -/
theorem tool_call_hides_message :
    ∃ r r', parseChatRequest (oneMessage userFields) = .ok r
      ∧ parseChatRequest (oneMessage (userFields ++ [("tool_calls", .arr [.obj []])])) = .ok r'
      ∧ oneKeyword.RejectsFor r.messages 0 ∧ StillSent r.messages r'.messages 0
      ∧ ¬ oneKeyword.Rejects r'.messages := by
  refine ⟨_, _, rfl, rfl, oneKeyword_rejects, rfl, ?_⟩
  rintro ⟨ctx, hs, hp⟩
  cases hs
  cases hp

end AegisGate
