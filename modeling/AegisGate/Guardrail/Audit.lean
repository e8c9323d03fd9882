import Mathlib.Data.List.Induction
import AegisGate.Cache.Key

/-!
# The audit chain

`AuditLogger` of `src/guardrail/audit.cpp`: each entry has the hash of its fields and of the hash
before it.  The logger keeps the last entries in memory and checks them from the empty hash on.  What
it does with an entry besides (the sink, the store, the subscribers) is left out.

* `computeChainHash`  the hash of an entry after another hash;
* `log`, `clear`  a new entry, with room made for it, and no entries;
* `verifyChain`  the hashes of a list of entries, from the empty one;
* `chained`  the entries of a list as they are logged.

What is dropped takes the beginning of the chain with it: the entries verify exactly when none was
dropped, or none is left (`chain_verifies_iff`).  A change of one field of an entry is seen, but for
`output_hash`, which is not hashed (`tampering_detected_iff`).
-/

namespace AegisGate.Audit

open List Cache

structure AuditEntry where
  requestId : String := ""
  timestamp : String := ""
  tenantId : String := ""
  action : String := ""
  stageName : String := ""
  detail : String := ""
  inputHash : String := ""
  outputHash : String := ""
  chainHash : String := ""
  deriving DecidableEq

structure AuditLogger where
  entries : List AuditEntry := []
  maxEntries : ℕ := 100000
  lastChainHash : String := ""

def payload (entry : AuditEntry) (prev : String) : String :=
  prev ++ "|" ++ entry.timestamp ++ "|" ++ entry.requestId ++ "|" ++ entry.tenantId ++ "|" ++
    entry.stageName ++ "|" ++ entry.action ++ "|" ++ entry.detail ++ "|" ++ entry.inputHash

inductive Call
  | log (entry : AuditEntry)
  | logAction (requestId tenantId stage action detail timestamp : String)
  | clear

section
variable (sha256 : String → String)

def computeChainHash (entry : AuditEntry) (prev : String) : String := sha256 (payload entry prev)

/-- the loop of `verifyChain`, after `prev` -/
def verifyFrom (prev : String) : List AuditEntry → Bool
  | [] => true
  | e :: es => if e.chainHash ≠ computeChainHash sha256 e prev then false else verifyFrom e.chainHash es

def verifyChain (entries : List AuditEntry) : Bool := verifyFrom sha256 "" entries

def chain (prev : String) (e : AuditEntry) : AuditEntry :=
  { e with chainHash := computeChainHash sha256 e prev }

/-- there is nothing to erase when no entry is to be kept, and the behaviour is undefined -/
def log (s : AuditLogger) (entry : AuditEntry) : Option AuditLogger :=
  let entry := chain sha256 s.lastChainHash entry
  let s := { s with lastChainHash := entry.chainHash }
  if s.maxEntries ≤ s.entries.length then
    match s.entries with
    | [] => none
    | _ :: rest => some { s with entries := rest ++ [entry] }
  else some { s with entries := s.entries ++ [entry] }

def call (s : AuditLogger) : Call → Option AuditLogger
  | .log entry => log sha256 s entry
  | .logAction requestId tenantId stage action detail timestamp =>
    log sha256 s { requestId, timestamp, tenantId, stageName := stage, action, detail }
  | .clear => some { s with entries := [] }

def run (maxEntries : ℕ) (l : List Call) : Option AuditLogger :=
  l.foldlM (call sha256) { maxEntries }

/-! ## chains -/

def chained (prev : String) : List AuditEntry → List AuditEntry
  | [] => []
  | e :: es => chain sha256 prev e :: chained (chain sha256 prev e).chainHash es

def tip (prev : String) : List AuditEntry → String
  | [] => prev
  | e :: es => tip (chain sha256 prev e).chainHash es

variable {sha256}

lemma verifyFrom_cons {prev : String} {e : AuditEntry} {es : List AuditEntry} :
    verifyFrom sha256 prev (e :: es) ↔
      e.chainHash = computeChainHash sha256 e prev ∧ verifyFrom sha256 e.chainHash es := by
  rw [verifyFrom]
  by_cases h : e.chainHash = computeChainHash sha256 e prev <;> simp [h]

lemma chained_append (sha256 : String → String) (es : List AuditEntry) (e : AuditEntry) : ∀ prev,
    chained sha256 prev (es ++ [e]) =
      chained sha256 prev es ++ [chain sha256 (tip sha256 prev es) e] ∧
    tip sha256 prev (es ++ [e]) = (chain sha256 (tip sha256 prev es) e).chainHash := by
  induction es with
  | nil => intro prev; exact ⟨rfl, rfl⟩
  | cons x es ih =>
    intro prev
    obtain ⟨hlist, htip⟩ := ih (chain sha256 prev x).chainHash
    exact ⟨congrArg (chain sha256 prev x :: ·) hlist, htip⟩

lemma length_chained (es : List AuditEntry) : ∀ prev, (chained sha256 prev es).length = es.length := by
  induction es with
  | nil => intro prev; rfl
  | cons e es ih => intro prev; exact congrArg (· + 1) (ih _)

lemma verifyFrom_chained (es : List AuditEntry) : ∀ prev,
    verifyFrom sha256 prev (chained sha256 prev es) := by
  induction es with
  | nil => intro prev; rfl
  | cons e es ih => intro prev; exact verifyFrom_cons.2 ⟨rfl, ih _⟩

lemma payload_prev_inj {e : AuditEntry} {prev prev' : String}
    (h : payload e prev = payload e prev') : prev = prev' := by
  unfold payload at h
  simpa only [String.append_left_inj] using h

lemma verify_drop (hinj : Function.Injective sha256) (hne : ∀ s, sha256 s ≠ "")
    (es : List AuditEntry) : ∀ (prev : String) (n : ℕ), n < es.length →
      verifyFrom sha256 "" ((chained sha256 prev es).drop n) → n = 0 ∧ prev = "" := by
  induction es with
  | nil => intro prev n hn; cases hn
  | cons e es ih =>
    intro prev n hn h
    cases n with
    | zero =>
      have hhash := (verifyFrom_cons.1 h).1
      exact ⟨rfl, payload_prev_inj (hinj hhash)⟩
    | succ n =>
      have hnil := (ih _ n (Nat.lt_of_succ_lt_succ hn) h).2
      exact absurd hnil (hne _)

end

/-! ## histories -/

def Call.logs : Call → Bool
  | .clear => false
  | _ => true

section
variable (l : List Call)

def logged : ℕ := l.countP Call.logs

def loggedSinceClear : ℕ := (l.reverse.takeWhile Call.logs).length

lemma logged_append (c : Call) : logged (l ++ [c]) = logged l + if c.logs then 1 else 0 := by
  unfold logged
  rw [countP_append, countP_singleton]

lemma loggedSinceClear_append (c : Call) :
    loggedSinceClear (l ++ [c]) = if c.logs then loggedSinceClear l + 1 else 0 := by
  unfold loggedSinceClear
  rw [reverse_append, reverse_singleton, singleton_append, takeWhile_cons]
  split <;> simp

lemma loggedSinceClear_le : loggedSinceClear l ≤ logged l := by
  induction l using List.reverseRecOn with
  | nil => exact le_refl _
  | append_singleton l c ih =>
    rw [logged_append, loggedSinceClear_append]
    split <;> omega

end

/-- the entries `es` were logged, and the last `kept` of them are there -/
structure Holds (sha256 : String → String) (s : AuditLogger) (es : List AuditEntry) (kept : ℕ) :
    Prop where
  tip : s.lastChainHash = tip sha256 "" es
  entries : s.entries = (chained sha256 "" es).drop (es.length - kept)
  kept : kept ≤ es.length

section
variable {sha256 : String → String} {s : AuditLogger} {es : List AuditEntry} {kept : ℕ}
  {maxEntries : ℕ} {l : List Call}

section
variable (h : Holds sha256 s es kept)
include h

lemma Holds.length : s.entries.length = kept := by
  have := h.kept
  rw [h.entries, length_drop, length_chained]
  omega

lemma Holds.push (e : AuditEntry) {kept' : ℕ} (hpos : 0 < kept')
    (hle : kept' ≤ kept + 1) {s' : AuditLogger}
    (htip : s'.lastChainHash = (chain sha256 s.lastChainHash e).chainHash) (hentries : s'.entries =
      s.entries.drop (kept + 1 - kept') ++ [chain sha256 s.lastChainHash e]) :
    Holds sha256 s' (es ++ [e]) kept' := by
  have hkept := h.kept
  obtain ⟨hlist, htip'⟩ := chained_append sha256 es e ""
  refine ⟨by rw [htip, htip', h.tip], ?_, ?_⟩
  · rw [hentries, hlist, h.tip, h.entries, drop_drop, length_append, length_singleton,
      drop_append_of_le_length (by rw [length_chained]; omega)]
    congr 2
    omega
  · rw [length_append, length_singleton]
    omega

theorem Holds.log (hmax : 0 < s.maxEntries) (hle : kept ≤ s.maxEntries)
    (e : AuditEntry) : ∃ s', log sha256 s e = some s' ∧ s'.maxEntries = s.maxEntries ∧
      Holds sha256 s' (es ++ [e]) (min (kept + 1) s.maxEntries) := by
  have hlen := h.length
  unfold Audit.log
  simp only
  by_cases hfull : s.maxEntries ≤ s.entries.length
  · rw [if_pos hfull]
    cases hentries : s.entries with
    | nil =>
      rw [hentries, length_nil] at hfull
      omega
    | cons x rest =>
      refine ⟨_, rfl, rfl, h.push e (by omega) (min_le_left _ _) rfl ?_⟩
      have hone : kept + 1 - min (kept + 1) s.maxEntries = 1 := by omega
      rw [hone, hentries]
      rfl
  · rw [if_neg hfull]
    refine ⟨_, rfl, rfl, h.push e (by omega) (min_le_left _ _) rfl ?_⟩
    have hnone : kept + 1 - min (kept + 1) s.maxEntries = 0 := by omega
    rw [hnone, drop_zero]

end

lemma run_append (hrun : run sha256 maxEntries l = some s) (c : Call) :
    run sha256 maxEntries (l ++ [c]) = call sha256 s c := by
  unfold run at hrun ⊢
  rw [foldlM_append, hrun]
  simp

def HoldsAfter (sha256 : String → String) (maxEntries : ℕ) (l : List Call) : Prop :=
  ∃ s es, run sha256 maxEntries l = some s ∧ s.maxEntries = maxEntries ∧ es.length = logged l ∧
    Holds sha256 s es (min (loggedSinceClear l) maxEntries)

theorem HoldsAfter.log (h : HoldsAfter sha256 maxEntries l) (hmax : 0 < maxEntries) {c : Call}
    (hc : c.logs) (e : AuditEntry) (he : ∀ s, call sha256 s c = log sha256 s e) :
    HoldsAfter sha256 maxEntries (l ++ [c]) := by
  obtain ⟨s, es, hrun, rfl, hes, h⟩ := h
  obtain ⟨s', hs', hmax', h'⟩ := h.log hmax (min_le_right _ _) e
  refine ⟨s', es ++ [e], ((run_append hrun c).trans (he s)).trans hs', hmax', ?_, ?_⟩
  · rw [logged_append, if_pos hc, length_append, hes]
    rfl
  · have hkept : min (min (loggedSinceClear l) s.maxEntries + 1) s.maxEntries =
        min (loggedSinceClear (l ++ [c])) s.maxEntries := by
      rw [loggedSinceClear_append, if_pos hc]
      omega
    rw [← hkept]
    exact h'

lemma holdsAfter (sha256 : String → String) (hmax : 0 < maxEntries) (l : List Call) :
    HoldsAfter sha256 maxEntries l := by
  induction l using List.reverseRecOn with
  | nil => exact ⟨_, [], rfl, rfl, rfl, rfl, rfl, by simp [loggedSinceClear]⟩
  | append_singleton l c ih =>
    cases c with
    | log entry => exact ih.log hmax rfl entry fun _ => rfl
    | logAction requestId tenantId stage action detail timestamp =>
      exact ih.log hmax rfl _ fun _ => rfl
    | clear =>
      obtain ⟨s, es, hrun, hs, hes, h⟩ := ih
      refine ⟨_, es, run_append hrun .clear, hs, ?_, h.tip, ?_, ?_⟩
      · rw [logged_append, hes]
        rfl
      · rw [loggedSinceClear_append]
        simp [Call.logs, length_chained]
      · rw [loggedSinceClear_append]
        simp [Call.logs]

/-- without room for an entry, a history that logs one is undefined -/
lemma run_zero (sha256 : String → String) (l : List Call) :
    (0 < logged l → run sha256 0 l = none) ∧
      (logged l = 0 → run sha256 0 l = some { maxEntries := 0 }) := by
  induction l using List.reverseRecOn with
  | nil => exact ⟨nofun, fun _ => rfl⟩
  | append_singleton l c ih =>
    rcases Nat.eq_zero_or_pos (logged l) with hzero | hpos
    · have hnext := run_append (ih.2 hzero) c
      rw [logged_append, hzero, hnext]
      cases c with
      | clear => exact ⟨nofun, fun _ => rfl⟩
      | _ => exact ⟨fun _ => rfl, nofun⟩
    · rw [logged_append]
      refine ⟨fun _ => ?_, by omega⟩
      have hnone := ih.1 hpos
      unfold run at hnone ⊢
      rw [foldlM_append, hnone]
      rfl

/-- after any calls, the entries in memory verify exactly when all that were logged are there, or
there is room and none was logged since the last `clear` -/
theorem chain_verifies_iff (hinj : Function.Injective sha256) (hne : ∀ s, sha256 s ≠ "")
    (maxEntries : ℕ) (l : List Call) :
    (∃ s, run sha256 maxEntries l = some s ∧ verifyChain sha256 s.entries) ↔
      0 < maxEntries ∧ loggedSinceClear l = 0 ∨
        logged l = loggedSinceClear l ∧ logged l ≤ maxEntries := by
  have hsince := loggedSinceClear_le l
  rcases Nat.eq_zero_or_pos maxEntries with rfl | hmax
  · obtain ⟨hsome, hnone⟩ := run_zero sha256 l
    constructor
    · rintro ⟨s, hrun, -⟩
      by_contra hno
      rw [hsome (by omega)] at hrun
      cases hrun
    · rintro (⟨hpos, -⟩ | ⟨-, hle⟩)
      · cases hpos
      · exact ⟨_, hnone (Nat.le_zero.1 hle), rfl⟩
  · obtain ⟨s, es, hrun, -, hes, h⟩ := holdsAfter sha256 hmax l
    rw [hrun]
    simp only [Option.some.injEq, exists_eq_left']
    rw [h.entries]
    constructor
    · intro hverify
      by_contra hno
      have hlt : es.length - min (loggedSinceClear l) maxEntries < es.length := by omega
      have := (verify_drop hinj hne es "" _ hlt hverify).1
      omega
    · rintro (⟨-, hzero⟩ | ⟨hall, hle⟩)
      · rw [hzero, drop_of_length_le (by rw [length_chained]; omega)]
        rfl
      · have hnone : es.length - min (loggedSinceClear l) maxEntries = 0 := by omega
        rw [hnone]
        exact verifyFrom_chained es ""

end

def threeActions : List Call :=
  List.replicate 3 (.logAction "r" "t" "guard" "block" "" "2026-01-01T00:00:00Z")

theorem full_log_verifies :
    ∃ s, run spelled.digest 3 threeActions = some s ∧ verifyChain spelled.digest s.entries :=
  (chain_verifies_iff spelled.injective spelled.nonempty 3 threeActions).2
    (.inr (by decide))

/-- the first entry was dropped, and the second does not begin a chain -/
theorem trimmed_log_fails :
    ∃ s, run spelled.digest 2 threeActions = some s ∧
      verifyChain spelled.digest s.entries = false := by
  refine ⟨_, rfl, ?_⟩
  decide +kernel

/-! ## changed fields -/

inductive Field
  | timestamp | requestId | tenantId | stageName | action | detail | inputHash | outputHash
  deriving DecidableEq

variable (e : AuditEntry)

def AuditEntry.get : Field → String
  | .timestamp => e.timestamp
  | .requestId => e.requestId
  | .tenantId => e.tenantId
  | .stageName => e.stageName
  | .action => e.action
  | .detail => e.detail
  | .inputHash => e.inputHash
  | .outputHash => e.outputHash

def AuditEntry.set (f : Field) (v : String) : AuditEntry :=
  match f with
  | .timestamp => { e with timestamp := v }
  | .requestId => { e with requestId := v }
  | .tenantId => { e with tenantId := v }
  | .stageName => { e with stageName := v }
  | .action => { e with action := v }
  | .detail => { e with detail := v }
  | .inputHash => { e with inputHash := v }
  | .outputHash => { e with outputHash := v }

/-- the hash of an entry depends on each field but `outputHash` -/
lemma payload_set_iff (f : Field) (v prev : String) :
    payload (e.set f v) prev = payload e prev ↔ f = .outputHash ∨ v = e.get f := by
  cases f <;> simp [payload, AuditEntry.set, AuditEntry.get]

lemma chainHash_set (f : Field) (v : String) :
    (e.set f v).chainHash = e.chainHash := by cases f <;> rfl

lemma verifyFrom_set {sha256 : String → String} (hinj : Function.Injective sha256) (f : Field)
    (v : String) (entries : List AuditEntry) : ∀ (prev : String) (i : ℕ) (e : AuditEntry),
      verifyFrom sha256 prev entries → entries[i]? = some e →
        (verifyFrom sha256 prev (entries.set i (e.set f v)) ↔ f = .outputHash ∨ v = e.get f) := by
  induction entries with
  | nil => intro prev i e _ hi; simp at hi
  | cons x es ih =>
    intro prev i e h hi
    obtain ⟨hhash, hrest⟩ := verifyFrom_cons.1 h
    cases i with
    | zero =>
      obtain rfl : x = e := by simpa using hi
      rw [set_cons_zero, verifyFrom_cons, chainHash_set, and_iff_left hrest, hhash]
      exact (hinj.eq_iff.trans eq_comm).trans (payload_set_iff x f v prev)
    | succ i =>
      rw [set_cons_succ, verifyFrom_cons, and_iff_right hhash]
      exact ih _ i e hrest (by simpa using hi)

/-- in entries that verify, a new value in one field of one entry is seen exactly when it is not
`output_hash` -/
theorem tampering_detected_iff {sha256 : String → String} (hinj : Function.Injective sha256)
    {entries : List AuditEntry} (h : verifyChain sha256 entries) {i : ℕ} {e : AuditEntry}
    (hi : entries[i]? = some e) (f : Field) {v : String} (hv : v ≠ e.get f) :
    verifyChain sha256 (entries.set i (e.set f v)) = false ↔ f ≠ .outputHash := by
  rw [← Bool.not_eq_true, verifyChain, verifyFrom_set hinj f v entries "" i e h hi, not_or]
  exact and_iff_left hv

def blocked : AuditEntry :=
  chain spelled.digest "" { requestId := "r", detail := "a", outputHash := "x" }

theorem changed_detail_detected :
    verifyChain spelled.digest ([blocked].set 0 (blocked.set .detail "b")) = false := by
  have haccepted : verifyChain spelled.digest [blocked] := by decide +kernel
  exact (tampering_detected_iff spelled.injective haccepted rfl .detail (by decide)).2
    (by decide)

theorem changed_output_hash_accepted :
    blocked.outputHash ≠ "y" ∧ verifyChain spelled.digest [blocked] ∧
      verifyChain spelled.digest ([blocked].set 0 (blocked.set .outputHash "y")) := by
  decide +kernel

end AegisGate.Audit
