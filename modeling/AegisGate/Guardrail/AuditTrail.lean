import AegisGate.Guardrail.Audit
import AegisGate.Lib.Run

/-!
# The audit log in the store

`AuditLogger::log` by many threads, with the writer behind them.  An entry is chained under one mutex
and queued under another, and nothing holds the order in between.

* `Trail`  the entries on their way: chained, queued, taken by the writer, inserted;
* `AuditStore.insertAudit`  the rows after an insert that succeeds;
* `step`  one critical section, or one insert of the writer;
* `InOrder`  an entry is queued only when all that were chained before it are, and the store keeps
  every row as it is.

In such runs the rows are the chain (`persisted_chain`).  Two entries that are queued the other way
round are rows that do not verify (`queued_out_of_order`).  `entries_` and `flush` are left out.
-/

namespace AegisGate.Audit

open List

def kMaxQueueSize : ℕ := 10000

def kBatchSize : ℕ := 1000

/-- the available `Encryption`, for the purpose of the log; a nonce is drawn for each text -/
structure DetailCipher where
  encrypt : ℕ → String → String
  decrypt : String → Option String

def encryptDetail (enc : Option DetailCipher) (nonce : ℕ) (detail : String) : String :=
  match enc with
  | some c => if detail = "" ∨ c.encrypt nonce detail = "" then detail else c.encrypt nonce detail
  | none => detail

def decryptDetail (enc : Option DetailCipher) (stored : String) : String :=
  match enc with
  | some c => if stored = "" then stored else (c.decrypt stored).getD stored
  | none => stored

/-- the implementations of `PersistentStore` -/
inductive AuditStore
  | memory | sqlite | postgres

namespace AuditStore

/-- `max_audits_` of the store in memory -/
def maxAudits : ℕ := 100000

/-- `c_str()`, as a database gets a text -/
def cStr (text : String) : String := String.ofList (text.toList.takeWhile (· ≠ '\x00'))

def bound (c : AuditEntry) : AuditEntry :=
  ⟨cStr c.requestId, cStr c.timestamp, cStr c.tenantId, cStr c.action, cStr c.stageName,
    cStr c.detail, cStr c.inputHash, cStr c.outputHash, cStr c.chainHash⟩

def insertAudit : AuditStore → List AuditEntry → AuditEntry → List AuditEntry
  | memory, rows, c => (if maxAudits ≤ rows.length then rows.tail else rows) ++ [c]
  | sqlite, rows, c | postgres, rows, c => rows ++ [bound c]

/-- there is room in memory, and no text for a database has a NUL in it -/
def Keeps : AuditStore → List AuditEntry → AuditEntry → Prop
  | memory, rows, _ => rows.length < maxAudits
  | sqlite, _, c | postgres, _, c => bound c = c

lemma Keeps.insertAudit {store : AuditStore} {rows : List AuditEntry} {c : AuditEntry}
    (h : store.Keeps rows c) : store.insertAudit rows c = rows ++ [c] := by
  cases store with
  | memory => rw [AuditStore.insertAudit, if_neg (Nat.not_le.2 h)]
  | sqlite | postgres => exact congrArg (rows ++ [·]) h

end AuditStore

structure Trail where
  lastChainHash : String := ""
  /-- what was chained, in the order of the chain -/
  chain : List AuditEntry := []
  /-- chained, and not yet queued -/
  inFlight : List AuditEntry := []
  pendingQueue : List AuditEntry := []
  batch : List AuditEntry := []
  rows : List AuditEntry := []
  stopped : Bool := false

inductive TrailEvent
  | chain (entry : AuditEntry)
  | enqueue (i nonce : ℕ)
  /-- the writer takes a batch; when it stops, all that is queued, for the last time -/
  | take (stop : Bool)
  | insertAudit

section
variable (sha256 : String → String) (enc : Option DetailCipher) (store : AuditStore)

def step (s : Trail) : TrailEvent → Option Trail
  | .chain entry =>
    let c := chain sha256 s.lastChainHash entry
    some { s with lastChainHash := c.chainHash, chain := s.chain ++ [c], inFlight := s.inFlight ++ [c] }
  | .enqueue i nonce => s.inFlight[i]?.map fun c =>
    let queue := if kMaxQueueSize ≤ s.pendingQueue.length then s.pendingQueue.tail else s.pendingQueue
    { s with
      inFlight := s.inFlight.eraseIdx i
      pendingQueue := queue ++ [{ c with detail := encryptDetail enc nonce c.detail }] }
  | .take stop =>
    if s.batch.isEmpty && !s.stopped then
      let n := if stop then s.pendingQueue.length else kBatchSize
      some { s with batch := s.pendingQueue.take n, pendingQueue := s.pendingQueue.drop n, stopped := stop }
    else none
  | .insertAudit =>
    match s.batch with
    | [] => none
    | c :: rest => some { s with batch := rest, rows := store.insertAudit s.rows c }

/-- the first in flight is the next to be queued, the queue does not overflow, and the store keeps all
rows -/
def InOrder (s : Trail) : TrailEvent → Prop
  | .enqueue i _ => i = 0 ∧ s.pendingQueue.length < kMaxQueueSize
  | .insertAudit => ∀ c ∈ s.batch.head?, store.Keeps s.rows c
  | _ => True

def OrderedStep (s t : Trail) : Prop := ∃ e, InOrder store s e ∧ step sha256 enc store s e = some t

def decrypted (c : AuditEntry) : AuditEntry := { c with detail := decryptDetail enc c.detail }

/-- all that is on its way stands in the order of the chain -/
structure Ordered (s : Trail) : Prop where
  chain : ∃ es, s.chain = chained sha256 "" es ∧ s.lastChainHash = tip sha256 "" es
  order : (s.rows ++ (s.batch ++ s.pendingQueue)).map (decrypted enc) ++ s.inFlight = s.chain

end

section
variable {sha256 : String → String} {enc : Option DetailCipher} {store : AuditStore} {s t : Trail}

theorem Ordered.step (hinv : ∀ nonce d, decryptDetail enc (encryptDetail enc nonce d) = d)
    (h : Ordered sha256 enc s) (hst : OrderedStep sha256 enc store s t) : Ordered sha256 enc t := by
  obtain ⟨e, horder, hst⟩ := hst
  obtain ⟨es, hchain, htip⟩ := h.chain
  cases e with
  | chain entry =>
    cases hst
    obtain ⟨hlist, htip'⟩ := chained_append sha256 es entry ""
    refine ⟨⟨es ++ [entry], ?_, ?_⟩, ?_⟩
    · rw [hlist, ← hchain, ← htip]
    · rw [htip', ← htip]
    · rw [← h.order, append_assoc]
  | enqueue i nonce =>
    obtain ⟨rfl, hroom⟩ := horder
    obtain ⟨c, hc, rfl⟩ := Option.map_eq_some_iff.1 hst
    cases hflight : s.inFlight with
    | nil =>
      rw [hflight] at hc
      cases hc
    | cons c' rest =>
      rw [hflight] at hc
      cases hc
      have hsame : decrypted enc { c with detail := encryptDetail enc nonce c.detail } = c := by
        simp only [decrypted, hinv]
      refine ⟨h.chain, ?_⟩
      simp only [if_neg (Nat.not_le.2 hroom), eraseIdx_cons_zero]
      rw [← h.order, hflight, ← append_assoc, ← append_assoc, map_append, map_singleton, hsame]
      simp
  | take stop =>
    simp only [Audit.step] at hst
    split at hst
    · next hidle =>
      simp only [Bool.and_eq_true, List.isEmpty_iff] at hidle
      cases hst
      refine ⟨h.chain, ?_⟩
      rw [take_append_drop, ← h.order, hidle.1, nil_append]
    · cases hst
  | insertAudit =>
    simp only [Audit.step] at hst
    split at hst
    · cases hst
    · next c rest hbatch =>
      cases hst
      refine ⟨h.chain, ?_⟩
      have hkeeps : store.Keeps s.rows c := horder c (by rw [hbatch]; rfl)
      rw [hkeeps.insertAudit, ← h.order, hbatch]
      simp

lemma verifyFrom_left {prev : String} {l r : List AuditEntry} :
    verifyFrom sha256 prev (l ++ r) → verifyFrom sha256 prev l := by
  induction l generalizing prev with
  | nil => exact fun _ => rfl
  | cons e l ih =>
    intro h
    obtain ⟨hhash, hrest⟩ := verifyFrom_cons.1 h
    exact verifyFrom_cons.2 ⟨hhash, ih hrest⟩

/-- when entries are queued in the order of the chain and the store keeps them, the rows begin it, are
all of it when nothing is on its way, and verify -/
theorem persisted_chain (sha256 : String → String) (enc : Option DetailCipher) (store : AuditStore)
    (hinv : ∀ nonce d, decryptDetail enc (encryptDetail enc nonce d) = d)
    (hrun : Run.Reach (OrderedStep sha256 enc store) {} s) : s.rows.map (decrypted enc) <+: s.chain ∧
      (s.batch = [] → s.pendingQueue = [] → s.inFlight = [] → s.rows.map (decrypted enc) = s.chain) ∧
      verifyChain sha256 (s.rows.map (decrypted enc)) := by
  have h : Ordered sha256 enc s :=
    Run.Reach.inv (fun _ _ h hst => h.step hinv hst) hrun ⟨⟨[], rfl, rfl⟩, rfl⟩
  obtain ⟨es, hchain, -⟩ := h.chain
  have horder := h.order
  rw [map_append, append_assoc] at horder
  have hverify : verifyFrom sha256 "" s.chain := hchain ▸ verifyFrom_chained es ""
  refine ⟨⟨_, horder⟩, ?_, verifyFrom_left (horder ▸ hverify)⟩
  intro hbatch hqueue hflight
  simpa [hbatch, hqueue, hflight] using horder

end

/-- a cipher that marks a text and turns it round -/
def mirrorCipher : DetailCipher where
  encrypt _ d := String.ofList ('#' :: d.toList.reverse)
  decrypt s := some (String.ofList s.toList.tail.reverse)

lemma mirrorCipher_inverts (nonce : ℕ) (d : String) :
    decryptDetail (some mirrorCipher) (encryptDetail (some mirrorCipher) nonce d) = d := by
  by_cases hd : d = ""
  · subst hd
    rfl
  · simp [encryptDetail, decryptDetail, mirrorCipher, hd]

/-- two loggers between whose entries the writer runs; SQLite stores the details encrypted -/
theorem two_entries_persisted :
    ∃ s : Trail, Run.Reach (OrderedStep Cache.spelled.digest (some mirrorCipher) .sqlite) {} s ∧
      s.rows.map (·.detail) = ["#iip", "#xot"] ∧ s.rows.map (decrypted (some mirrorCipher)) = s.chain ∧
      verifyChain Cache.spelled.digest (s.rows.map (decrypted (some mirrorCipher))) := by
  have hrun := Run.Reach.refl (R := OrderedStep Cache.spelled.digest (some mirrorCipher) .sqlite) {}
    |>.tail ⟨.chain { requestId := "a", detail := "pii" }, trivial, rfl⟩
    |>.tail ⟨.chain { requestId := "b", detail := "tox" }, trivial, rfl⟩
    |>.tail ⟨.enqueue 0 0, ⟨rfl, by decide⟩, rfl⟩ |>.tail ⟨.take false, trivial, rfl⟩
    |>.tail ⟨.enqueue 0 1, ⟨rfl, by decide⟩, rfl⟩
    |>.tail ⟨.insertAudit, by rintro c ⟨⟩; show AuditStore.bound _ = _; decide +kernel, rfl⟩
    |>.tail ⟨.take false, trivial, rfl⟩
    |>.tail ⟨.insertAudit, by rintro c ⟨⟩; show AuditStore.bound _ = _; decide +kernel, rfl⟩
  obtain ⟨-, hall, hverify⟩ := persisted_chain _ _ .sqlite mirrorCipher_inverts hrun
  exact ⟨_, hrun, by decide +kernel, hall rfl rfl rfl, hverify⟩

/-- the second logger comes to the queue before the first -/
theorem queued_out_of_order :
    ∃ s : Trail, [.chain { requestId := "a" }, .chain { requestId := "b" }, .enqueue 1 0, .enqueue 0 0,
        .take false, .insertAudit, .insertAudit].foldlM (step Cache.spelled.digest none .memory) {} = some s ∧
      s.batch = [] ∧ s.pendingQueue = [] ∧ s.inFlight = [] ∧
      verifyChain Cache.spelled.digest (s.rows.map (decrypted none)) = false :=
  ⟨_, rfl, rfl, rfl, rfl, by decide +kernel⟩

end AegisGate.Audit
