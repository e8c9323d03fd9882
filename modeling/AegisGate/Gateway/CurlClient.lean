import AegisGate.Gateway.Balancer
import AegisGate.Lib.Fair
import Mathlib.Algebra.GroupWithZero.Nat
import Mathlib.Data.List.Nodup

/-!
# The libcurl client and its worker thread

`src/gateway/connector/curl_upstream_client.cpp`: callers enqueue requests, one worker thread moves
them to libcurl and calls back, `shutdown` stops the worker and clears what is left.

* `workerStep`  one step of `workerLoop`, with `startTransfer` and `finishTransfer`;
* `Caller`  `OpenAIConnector::complete`, blocked on the callback of its request;
* `netStep`  one step of a caller, the worker, or the thread in `shutdown`;
* `Fair`  what is assumed of schedulers and of libcurl.

A request is its number, in the order of the calls.  Bodies and chunks are left out: the terminal
callback does not depend on them.
-/

namespace AegisGate.Curl

open List Nat Run

/-! ## the worker -/

inductive Position where
  | head
  | drain
  | start (r : Nat)
  | check
  | perform
  | read
  | exited
  deriving DecidableEq

inductive Reply where
  | done (status : Int)
  | error
  deriving DecidableEq

structure Client where
  running : Bool := true
  pc : Position := .head
  pending : List Nat := []
  active : List Nat := []
  /-- the messages that `curl_multi_info_read` has yet to return -/
  messages : List (Nat × Reply) := []
  answered : List (Nat × Reply) := []
  /-- the number of requests so far -/
  next : Nat := 0
  /-- `shutdown` waits for the worker -/
  joining : Bool := false

open Client

namespace Client

variable (c : Client)

def enqueue : Client :=
  { c with pending := c.pending ++ [c.next], next := c.next + 1 }

def finishTransfer (r : Nat) (reply : Reply) : Client :=
  { c with answered := c.answered ++ [(r, reply)], active := c.active.erase r }

/-- one step of the worker; `reported` is what `curl_multi_perform` brings to an end -/
def workerStep (reported : List (Nat × Reply)) : Client :=
  match c.pc with
  | .head => { c with pc := if c.running then .drain else .exited }
  | .drain =>
    match c.pending with
    | [] => { c with pc := .check }
    | r :: rest => { c with pending := rest, pc := .start r }
  | .start r => { c with active := c.active ++ [r], pc := .drain }
  | .check => { c with pc := if !c.running && c.active.isEmpty then .exited else .perform }
  | .perform =>
    { c with
      messages := c.active.filterMap (fun r => (reported.lookup r).map (fun reply => (r, reply)))
      pc := .read }
  | .read =>
    match c.messages with
    | [] => { c with pc := .head }
    | (r, reply) :: rest => { c.finishTransfer r reply with messages := rest }
  | .exited => c

/-- the first half of `shutdown`; only the call that stops the client goes on to the second -/
def stop : Client :=
  if c.running then { c with running := false, joining := true } else c

/-- the second half, after the join: the transfers that are left are dropped -/
def cleanup : Client :=
  if c.joining ∧ c.pc = .exited then { c with active := [], joining := false } else c

def starting : List Nat :=
  match c.pc with
  | .start r => [r]
  | _ => []

def unanswered : List Nat := c.pending ++ c.starting ++ c.active

def settled : List Nat := c.answered.map Prod.fst

end Client

/-! ## callers that wait -/

inductive Phase where
  | choosing
  | waiting (r : Nat)
  | returned
  deriving DecidableEq

structure Caller where
  maxAttempts : Nat
  tried : List String := []
  phase : Phase := .choosing

structure Net where
  client : Client := {}
  callers : List Caller := []

def Caller.resumed (c : Caller) : Reply → Caller
  | .error => { c with phase := .choosing }
  | .done status =>
    if status ≠ 200 ∧ (status = -1 ∨ isRetryableStatus status) then { c with phase := .choosing }
    else { c with phase := .returned }

/-- the next step of a caller; `key` is what the balancer answers -/
def callerStep (client : Client) (c : Caller) (key : String) : Client × Caller :=
  match c.phase with
  | .choosing =>
    if key = "" ∨ key ∈ c.tried ∨ c.maxAttempts ≤ c.tried.length then
      (client, { c with phase := .returned })
    else
      (client.enqueue, { c with tried := key :: c.tried, phase := .waiting client.next })
  | .waiting r =>
    match client.answered.lookup r with
    | none => (client, c)
    | some reply => (client, c.resumed reply)
  | .returned => (client, c)

inductive NetEvent where
  | send
  | complete (maxRetries : Int)
  | caller (i : Nat) (key : String)
  | worker (reported : List (Nat × Reply))
  | shutdown
  | cleanup
  deriving DecidableEq

def netStep (s : Net) : NetEvent → Net
  | .send => { s with client := s.client.enqueue }
  | .complete maxRetries =>
    { s with callers := s.callers ++ [{ maxAttempts := maxAttempts maxRetries }] }
  | .caller i key =>
    match s.callers[i]? with
    | none => s
    | some c =>
      { client := (callerStep s.client c key).1
        callers := s.callers.set i (callerStep s.client c key).2 }
  | .worker reported => { s with client := s.client.workerStep reported }
  | .shutdown => { s with client := s.client.stop }
  | .cleanup => { s with client := s.client.cleanup }

/-! ## runs -/

def net (e : ℕ → NetEvent) : ℕ → Net := states netStep {} e

/-- worker and callers go on, finitely many calls are made, and libcurl reports every transfer while
it is being called -/
structure Fair (e : ℕ → NetEvent) : Prop where
  worker : ∀ n, ∃ m, n ≤ m ∧ ∃ reported, e m = .worker reported
  callers : ∀ n i, i < (net e n).callers.length → ∃ m, n ≤ m ∧ ∃ key, e m = .caller i key
  finite : ∃ N, ∀ n, N ≤ n → e n ≠ .send ∧ ∀ maxRetries, e n ≠ .complete maxRetries
  libcurl : (∀ n, ∃ m, n ≤ m ∧ (net e m).client.pc = .perform) →
    ∀ n, ∀ r ∈ (net e n).client.active, ∃ m, n ≤ m ∧
      (r ∉ (net e m).client.active ∨ r ∈ (net e m).client.messages.map Prod.fst)

def Submits (s : Net) (e : NetEvent) : Prop := (netStep s e).client.next ≠ s.client.next

/-- nothing is submitted to a stopped client, and it is stopped when every request has had its
callback -/
structure Orderly (s : Net) (e : NetEvent) : Prop where
  submit : Submits s e → s.client.running
  stop : e = .shutdown → s.client.running → s.client.unanswered = []

/-! ## where a request is -/

/-- every request is in one place, in none twice, and only transfers in progress are reported -/
structure Books (c : Client) : Prop where
  nodup : (c.unanswered ++ c.settled).Nodup
  known : ∀ r ∈ c.unanswered ++ c.settled, r < c.next
  reported : ∀ r ∈ c.messages.map Prod.fst, r ∈ c.active
  distinct : (c.messages.map Prod.fst).Nodup
  reading : c.pc ≠ .read → c.messages = []

lemma Client.starting_of {c : Client} (h : ∀ r, c.pc ≠ .start r) : c.starting = [] := by
  unfold starting
  split
  · next r hr => exact absurd hr (h r)
  · rfl

inductive WorkerMoves (c : Client) (reported : List (Nat × Reply)) : Client → Prop where
  /-- the worker goes on to another place, and nothing else changes -/
  | goes {p} (hpc : c.starting = []) (hp : ∀ r, p ≠ .start r)
      (hexits : p = .exited → c.running = false)
      (hmessages : c.pc = .read → c.messages = []) : WorkerMoves c reported { c with pc := p }
  | takes {r rest} (hpc : c.pc = .drain) (hpending : c.pending = r :: rest) :
      WorkerMoves c reported { c with pending := rest, pc := .start r }
  | starts {r} (hpc : c.pc = .start r) :
      WorkerMoves c reported { c with active := c.active ++ [r], pc := .drain }
  | performs (hpc : c.pc = .perform) : WorkerMoves c reported { c with
      messages := c.active.filterMap (fun r => (reported.lookup r).map (fun reply => (r, reply)))
      pc := .read }
  | finishes {r reply rest} (hpc : c.pc = .read)
      (hmessages : c.messages = (r, reply) :: rest) :
      WorkerMoves c reported { c.finishTransfer r reply with messages := rest }
  | rests (hpc : c.pc = .exited) : WorkerMoves c reported c

lemma workerStep_moves (c : Client) (reported : List (Nat × Reply)) :
    WorkerMoves c reported (c.workerStep reported) := by
  unfold workerStep
  cases hpc : c.pc with
  | head =>
    refine .goes (by rw [starting, hpc]) ?_ ?_ (by rw [hpc]; exact nofun)
    all_goals cases c.running
    all_goals simp
  | drain =>
    dsimp only
    split
    · exact .goes (p := .check) (by rw [starting, hpc]) nofun nofun (by rw [hpc]; exact nofun)
    · next r rest hpending => exact .takes hpc hpending
  | start r => exact .starts hpc
  | check =>
    refine .goes (by rw [starting, hpc]) ?_ ?_ (by rw [hpc]; exact nofun)
    all_goals cases c.running
    all_goals cases c.active.isEmpty
    all_goals simp
  | perform => exact .performs hpc
  | read =>
    dsimp only
    split
    · next hmessages =>
      exact .goes (p := .head) (by rw [starting, hpc]) nofun nofun fun _ => hmessages
    · next r reply rest hmessages => exact .finishes hpc hmessages
  | exited => exact .rests hpc

section
variable {c c' : Client} {reported : List (Nat × Reply)}

lemma WorkerMoves.perm (h : Books c) (hm : WorkerMoves c reported c') :
    (c'.unanswered ++ c'.settled).Perm (c.unanswered ++ c.settled) := by
  cases hm with
  | @goes p hpc hp =>
    have hpc' : starting { c with pc := p } = [] := starting_of hp
    show (c.pending ++ starting { c with pc := p } ++ c.active ++ c.settled).Perm
      (c.pending ++ c.starting ++ c.active ++ c.settled)
    rw [hpc, hpc']
  | @takes r rest hpc hpending =>
    show (rest ++ [r] ++ c.active ++ c.settled).Perm (c.pending ++ c.starting ++ c.active ++ c.settled)
    rw [hpending, starting, hpc, append_nil]
    exact (perm_append_singleton r rest).append_right _ |>.append_right _
  | @starts r hpc =>
    show (c.pending ++ [] ++ (c.active ++ [r]) ++ c.settled).Perm
      (c.pending ++ c.starting ++ c.active ++ c.settled)
    rw [starting, hpc, append_nil, append_assoc c.pending [r] c.active]
    exact ((perm_append_singleton r c.active).append_left c.pending).append_right _
  | performs hpc =>
    show (c.pending ++ [] ++ c.active ++ c.settled).Perm
      (c.pending ++ c.starting ++ c.active ++ c.settled)
    rw [starting, hpc]
  | @finishes r reply rest hpc hmessages =>
    have hr : r ∈ c.active := h.reported r (by rw [hmessages]; exact mem_cons_self)
    show (c.pending ++ starting { c.finishTransfer r reply with messages := rest } ++
      c.active.erase r ++ (c.answered ++ [(r, reply)]).map Prod.fst).Perm
        (c.pending ++ c.starting ++ c.active ++ c.answered.map Prod.fst)
    have hstarting : starting { c.finishTransfer r reply with messages := rest } = c.starting := rfl
    rw [hstarting, map_append, append_assoc _ c.active, append_assoc _ (c.active.erase r)]
    refine List.Perm.append_left _ ?_
    calc c.active.erase r ++ (c.answered.map Prod.fst ++ [r])
        |>.Perm (c.active.erase r ++ (r :: c.answered.map Prod.fst)) :=
          (perm_append_singleton r _).append_left _
      _ |>.Perm (r :: c.active.erase r ++ c.answered.map Prod.fst) := perm_middle
      _ |>.Perm (c.active ++ c.answered.map Prod.fst) :=
          (perm_cons_erase hr).symm.append_right _
  | rests => exact .refl _

lemma WorkerMoves.next (hm : WorkerMoves c reported c') : c'.next = c.next := by
  cases hm <;> rfl

lemma WorkerMoves.running (hm : WorkerMoves c reported c') : c'.running = c.running := by
  cases hm <;> rfl

lemma filterMap_lookup_fst (active : List Nat) (reported : List (Nat × Reply)) :
    ((active.filterMap (fun r => (reported.lookup r).map (fun reply => (r, reply)))).map
      Prod.fst).Sublist active := by
  induction active with
  | nil => exact .slnil
  | cons r active ih =>
    rw [filterMap_cons]
    cases reported.lookup r with
    | none => exact ih.cons r
    | some reply => exact ih.cons_cons r

section
variable (h : Books c)
include h

lemma Books.active_nodup : c.active.Nodup :=
  (nodup_append.1 (nodup_append.1 h.nodup).1).2.1

lemma Books.worker (hm : WorkerMoves c reported c') : Books c' where
  nodup := (hm.perm h).nodup_iff.2 h.nodup
  known := by
    intro r hr
    rw [hm.next]
    exact h.known r ((hm.perm h).mem_iff.1 hr)
  reported := by
    intro r hr
    cases hm with
    | starts => exact mem_append_left _ (h.reported r hr)
    | performs => exact (filterMap_lookup_fst _ _).subset hr
    | @finishes r0 _ _ _ hmessages =>
      have hdistinct := h.distinct
      have hmem := h.reported
      rw [hmessages, map_cons] at hdistinct hmem
      have hne : r ≠ r0 := by
        rintro rfl
        exact (nodup_cons.1 hdistinct).1 hr
      exact (mem_erase_of_ne hne).2 (hmem r (mem_cons_of_mem _ hr))
    | _ => exact h.reported r hr
  distinct := by
    cases hm with
    | performs => exact h.active_nodup.sublist (filterMap_lookup_fst _ _)
    | finishes _ hmessages =>
      have hdistinct := h.distinct
      rw [hmessages, map_cons] at hdistinct
      exact (nodup_cons.1 hdistinct).2
    | _ => exact h.distinct
  reading := by
    intro hpc'
    cases hm with
    | goes _ _ _ hmessages =>
      by_cases hpc : c.pc = .read
      · exact hmessages hpc
      · exact h.reading hpc
    | takes hpc | starts hpc => exact h.reading (by rw [hpc]; exact nofun)
    | performs => exact absurd rfl hpc'
    | finishes hpc => exact absurd hpc hpc'
    | rests => exact h.reading hpc'

lemma Books.enqueue : Books c.enqueue := by
  have hperm : (c.enqueue.unanswered ++ c.enqueue.settled).Perm
      (c.next :: (c.unanswered ++ c.settled)) := by
    show (c.pending ++ [c.next] ++ c.starting ++ c.active ++ c.settled).Perm
      (c.next :: (c.pending ++ c.starting ++ c.active ++ c.settled))
    simp only [append_assoc, singleton_append]
    exact perm_middle
  refine ⟨?_, ?_, h.reported, h.distinct, h.reading⟩
  · rw [hperm.nodup_iff, nodup_cons]
    exact ⟨fun hmem => absurd (h.known _ hmem) (lt_irrefl _), h.nodup⟩
  · intro r hr
    rcases mem_cons.1 (hperm.mem_iff.1 hr) with rfl | hr
    · exact lt_succ_self _
    · exact lt_succ_of_lt (h.known r hr)

lemma Books.stop : Books c.stop := by
  unfold Client.stop
  split
  · exact ⟨h.nodup, h.known, h.reported, h.distinct, h.reading⟩
  · exact h

lemma Books.cleanup : Books c.cleanup := by
  unfold Client.cleanup
  split
  · next hjoin =>
    have hsub : (c.pending ++ c.starting ++ [] ++ c.settled).Sublist
        (c.unanswered ++ c.settled) :=
      ((List.Sublist.refl _).append (nil_sublist _)).append (.refl _)
    have hmsgs : c.messages = [] := h.reading (by rw [hjoin.2]; exact nofun)
    refine ⟨h.nodup.sublist hsub, fun r hr => h.known r (hsub.subset hr), ?_, h.distinct, h.reading⟩
    rw [hmsgs]
    exact forall_mem_nil _
  · exact h

end

end

/-! ## the steps of a run -/

inductive Moves (c : Client) : Client → Prop
  | same : Moves c c
  | enqueue : Moves c c.enqueue
  | worker (reported : List (Nat × Reply)) : Moves c (c.workerStep reported)
  | stop : Moves c c.stop
  | cleanup : Moves c c.cleanup

lemma caller_client (s : Net) (i : Nat) (key : String) :
    (netStep s (.caller i key)).client = s.client
      ∨ (netStep s (.caller i key)).client = s.client.enqueue := by
  unfold netStep
  dsimp only
  split
  · exact .inl rfl
  · unfold callerStep
    split
    · split
      · exact .inl rfl
      · exact .inr rfl
    · split <;> exact .inl rfl
    · exact .inl rfl

lemma netStep_moves (s : Net) (e : NetEvent) : Moves s.client (netStep s e).client := by
  cases e with
  | send => exact .enqueue
  | complete => exact .same
  | caller i key =>
    rcases caller_client s i key with h | h
    · rw [h]
      exact .same
    · rw [h]
      exact .enqueue
  | worker reported => exact .worker reported
  | shutdown => exact .stop
  | cleanup => exact .cleanup

lemma Books.moves {c c' : Client} (h : Books c) (hm : Moves c c') : Books c' := by
  cases hm with
  | same => exact h
  | enqueue => exact h.enqueue
  | worker reported => exact h.worker (workerStep_moves c reported)
  | stop => exact h.stop
  | cleanup => exact h.cleanup

lemma books_net (e : ℕ → NetEvent) (n : ℕ) : Books (net e n).client := by
  refine states_inv (I := fun s : Net => Books s.client) ?_
    (fun n h => h.moves (netStep_moves _ _)) n
  exact ⟨nodup_nil, forall_mem_nil _, forall_mem_nil _, nodup_nil, fun _ => rfl⟩

/-- no request has two callbacks, in any run -/
lemma settled_count_le (e : ℕ → NetEvent) (n r : ℕ) : (net e n).client.settled.count r ≤ 1 :=
  nodup_iff_count_le_one.1 (nodup_append.1 (books_net e n).nodup).2.1 r

/-! ## orderly runs -/

/-- no request is lost, and a client that was stopped has none left -/
structure Tidy (c : Client) : Prop where
  covered : ∀ r, r < c.next → r ∈ c.unanswered ++ c.settled
  stopped : c.running = false → c.unanswered = []
  exited : c.pc = .exited → c.running = false

section
variable {c c' : Client} {reported : List (Nat × Reply)}

lemma WorkerMoves.settled (hm : WorkerMoves c reported c') : c.settled.Sublist c'.settled := by
  cases hm with
  | finishes => exact (sublist_append_left _ _).map _
  | _ => exact .refl _

lemma WorkerMoves.idle (h : Books c) (hidle : c.unanswered = []) (hm : WorkerMoves c reported c') :
    c'.unanswered = [] := by
  have hperm := hm.perm h
  rw [hidle, nil_append] at hperm
  have hle := hm.settled.length_le
  have heq := hperm.length_eq
  rw [length_append] at heq
  exact length_eq_zero_iff.1 (by omega)

lemma WorkerMoves.exited (hexited : c.pc = .exited → c.running = false)
    (hm : WorkerMoves c reported c') (h : c'.pc = .exited) : c'.running = false := by
  cases hm with
  | goes _ _ hexits => exact hexits h
  | takes | starts | performs => cases h
  | finishes hpc => exact absurd (hpc.symm.trans h) nofun
  | rests => exact hexited h

lemma Tidy.worker (h : Tidy c) (hbooks : Books c) (hm : WorkerMoves c reported c') : Tidy c' where
  covered := by
    intro r hr
    rw [hm.next] at hr
    exact (hm.perm hbooks).mem_iff.2 (h.covered r hr)
  stopped := by
    intro hrun
    rw [hm.running] at hrun
    exact hm.idle hbooks (h.stopped hrun)
  exited := hm.exited h.exited

lemma Tidy.enqueue (h : Tidy c) (hrun : c.running) : Tidy c.enqueue where
  covered := by
    intro r hr
    show r ∈ c.pending ++ [c.next] ++ c.starting ++ c.active ++ c.settled
    rcases Nat.lt_succ_iff_lt_or_eq.1 hr with hlt | rfl
    · have hmem := h.covered r hlt
      simp only [unanswered, mem_append] at hmem ⊢
      tauto
    · simp
  stopped := by
    intro hno
    exact absurd (hrun.symm.trans hno) (by decide)
  exited := h.exited

lemma Tidy.stop (h : Tidy c) (hidle : c.running → c.unanswered = []) : Tidy c.stop := by
  unfold Client.stop
  split
  · next hrun => exact ⟨h.covered, fun _ => hidle hrun, fun _ => rfl⟩
  · exact h

lemma Tidy.cleanup (h : Tidy c) : Tidy c.cleanup := by
  unfold Client.cleanup
  split
  · next hjoin =>
    have hidle := h.stopped (h.exited hjoin.2)
    have hactive : c.active = [] := (append_eq_nil_iff.1 hidle).2
    refine ⟨?_, ?_, h.exited⟩
    · rw [← hactive]
      exact h.covered
    · intro _
      show c.pending ++ c.starting ++ [] = []
      rw [append_nil]
      exact (append_eq_nil_iff.1 hidle).1
  · exact h

end

lemma Tidy.step {s : Net} {e : NetEvent} (h : Tidy s.client) (hbooks : Books s.client)
    (horder : Orderly s e) : Tidy (netStep s e).client := by
  cases e with
  | send => exact h.enqueue (horder.submit (succ_ne_self _))
  | complete => exact h
  | caller i key =>
    rcases caller_client s i key with hc | hc
    · rw [hc]
      exact h
    · have hrun := horder.submit
      unfold Submits at hrun
      rw [hc] at hrun ⊢
      exact h.enqueue (hrun (succ_ne_self _))
  | worker reported => exact h.worker hbooks (workerStep_moves _ reported)
  | shutdown => exact h.stop (horder.stop rfl)
  | cleanup => exact h.cleanup

section
variable {e : ℕ → NetEvent}

lemma tidy_net (horder : ∀ n, Orderly (net e n) (e n)) (n : ℕ) : Tidy (net e n).client := by
  refine states_inv (I := fun s : Net => Tidy s.client) ?_
    (fun n h => h.step (books_net e n) (horder n)) n
  exact ⟨fun r hr => absurd hr (not_lt_zero r), fun _ => rfl, nofun⟩

end

section
variable {c c' : Client}

lemma Moves.running (h : Moves c c') (hrun : c'.running) : c.running := by
  cases h with
  | same | enqueue => exact hrun
  | worker reported => rwa [(workerStep_moves c reported).running] at hrun
  | stop =>
    unfold Client.stop at hrun
    split at hrun
    · next h => exact h
    · exact hrun
  | cleanup =>
    unfold Client.cleanup at hrun
    split at hrun <;> exact hrun

lemma Moves.settled (h : Moves c c') : c.settled.Sublist c'.settled := by
  cases h with
  | same | enqueue => exact .refl _
  | worker reported => exact (workerStep_moves c reported).settled
  | stop =>
    unfold Client.stop
    split <;> exact .refl _
  | cleanup =>
    unfold Client.cleanup
    split <;> exact .refl _

lemma Moves.next (h : Moves c c') : c.next ≤ c'.next := by
  cases h with
  | same => exact le_refl _
  | enqueue => exact le_succ _
  | worker reported => exact (workerStep_moves c reported).next.ge
  | stop =>
    unfold Client.stop
    split <;> exact le_refl _
  | cleanup =>
    unfold Client.cleanup
    split <;> exact le_refl _

end

section
variable {e : ℕ → NetEvent} {n m : ℕ}

lemma running_of_later (hnm : n ≤ m) (h : (net e m).client.running) : (net e n).client.running := by
  induction m, hnm using le_induction with
  | base => exact h
  | succ m hm ih => exact ih ((netStep_moves (net e m) (e m)).running h)

lemma settled_mono (hnm : n ≤ m) : (net e n).client.settled.Sublist (net e m).client.settled := by
  induction m, hnm using le_induction with
  | base => exact .refl _
  | succ m hm ih => exact ih.trans (netStep_moves (net e m) (e m)).settled

lemma next_mono (hnm : n ≤ m) : (net e n).client.next ≤ (net e m).client.next := by
  induction m, hnm using le_induction with
  | base => exact le_refl _
  | succ m hm ih => exact ih.trans (netStep_moves (net e m) (e m)).next

lemma settled_of_stopped (horder : ∀ n, Orderly (net e n) (e n)) {r : ℕ}
    (hr : r < (net e n).client.next) (hstop : (net e m).client.running = false) :
    r ∈ (net e (max n m)).client.settled := by
  have htidy := tidy_net horder (max n m)
  have hrun : (net e (max n m)).client.running = false := by
    cases h : (net e (max n m)).client.running with
    | false => rfl
    | true => exact absurd (running_of_later (le_max_right n m) h) (by rw [hstop]; decide)
  have hmem := htidy.covered r (lt_of_lt_of_le hr (next_mono (le_max_left n m)))
  rwa [htidy.stopped hrun, nil_append] at hmem

end

/-! ## the attempts of the callers end -/

def Caller.budget (c : Caller) : Nat := c.maxAttempts - c.tried.length

def Caller.rank (c : Caller) : Nat :=
  match c.phase with
  | .choosing => 2 * c.budget + 1
  | .waiting _ => 2 * c.budget + 2
  | .returned => 0

def Net.budget (s : Net) : Nat := (s.callers.map Caller.budget).sum

lemma Caller.resumed_rank (c : Caller) {r : Nat} (h : c.phase = .waiting r) (reply : Reply) :
    (c.resumed reply).rank < c.rank := by
  have hc : c.rank = 2 * c.budget + 2 := by
    unfold Caller.rank
    rw [h]
  rw [hc]
  cases reply with
  | error => exact lt_succ_self _
  | done status =>
    unfold Caller.resumed
    dsimp only
    split
    · exact lt_succ_self _
    · exact succ_pos _

lemma Caller.resumed_budget (c : Caller) (reply : Reply) : (c.resumed reply).budget = c.budget := by
  cases reply with
  | error => rfl
  | done status =>
    unfold Caller.resumed
    dsimp only
    split <;> rfl

/-- a step of a caller brings it nearer to its return, or leaves it: it has returned, or its request
has no answer -/
lemma callerStep_cases (client : Client) (c : Caller) (key : String) :
    callerStep client c key = (client, c)
        ∧ (c.phase = .returned ∨ ∃ r, c.phase = .waiting r ∧ client.answered.lookup r = none)
      ∨ (callerStep client c key).2.rank < c.rank
        ∧ ((callerStep client c key).1 = client ∧ (callerStep client c key).2.budget = c.budget
          ∨ (callerStep client c key).2.budget < c.budget) := by
  unfold callerStep
  split
  · next hphase =>
    have hrank : c.rank = 2 * c.budget + 1 := by
      unfold Caller.rank
      rw [hphase]
    rw [hrank]
    split
    · exact .inr ⟨succ_pos _, .inl ⟨rfl, rfl⟩⟩
    · next hgo =>
      push Not at hgo
      have hlt : c.maxAttempts - (c.tried.length + 1) < c.maxAttempts - c.tried.length :=
        Nat.sub_lt_sub_left hgo.2.2 (Nat.lt_succ_self _)
      refine .inr ⟨?_, .inr hlt⟩
      show 2 * (c.maxAttempts - (c.tried.length + 1)) + 2
        < 2 * (c.maxAttempts - c.tried.length) + 1
      omega
  · next r hphase =>
    split
    · next hnone => exact .inl ⟨rfl, .inr ⟨r, hphase, hnone⟩⟩
    · next reply _ =>
      exact .inr ⟨c.resumed_rank hphase reply, .inl ⟨rfl, c.resumed_budget reply⟩⟩
  · next hphase => exact .inl ⟨rfl, .inl hphase⟩

lemma callers_step {s : Net} {i : Nat} {c : Caller} (h : s.callers[i]? = some c) (e : NetEvent) :
    (netStep s e).callers[i]? = some c
      ∨ ∃ c', (netStep s e).callers[i]? = some c' ∧ c'.rank < c.rank := by
  cases e with
  | complete maxRetries =>
    obtain ⟨hi, rfl⟩ := List.getElem?_eq_some_iff.1 h
    exact .inl ((getElem?_append_left hi).trans h)
  | caller j key =>
    unfold netStep
    dsimp only
    split
    · exact .inl h
    · next c0 hj =>
      by_cases hij : j = i
      · subst hij
        rw [h] at hj
        cases hj
        rw [getElem?_set_self (List.getElem?_eq_some_iff.1 h).1]
        rcases callerStep_cases s.client c key with ⟨heq, _⟩ | ⟨hlt, _⟩
        · rw [heq]
          exact .inl rfl
        · exact .inr ⟨_, rfl, hlt⟩
      · rw [getElem?_set_ne hij]
        exact .inl h
  | send | worker | shutdown | cleanup => exact .inl h

lemma sum_map_set {α : Type*} (f : α → ℕ) {l : List α} {i : ℕ} {a : α} (h : l[i]? = some a)
    (b : α) : ((l.set i b).map f).sum + f a = (l.map f).sum + f b := by
  induction l generalizing i with
  | nil => cases h
  | cons x l ih =>
    cases i with
    | zero =>
      cases h
      show f b + (l.map f).sum + f a = f a + (l.map f).sum + f b
      omega
    | succ i =>
      show f x + ((l.set i b).map f).sum + f a = f x + (l.map f).sum + f b
      have := ih h
      omega

lemma budget_step {s : Net} {e : NetEvent} (hsend : e ≠ .send)
    (hcall : ∀ maxRetries, e ≠ .complete maxRetries) : (netStep s e).budget ≤ s.budget
      ∧ ((netStep s e).budget = s.budget → (netStep s e).client.next = s.client.next) := by
  cases e with
  | send => exact absurd rfl hsend
  | complete maxRetries => exact absurd rfl (hcall maxRetries)
  | caller i key =>
    unfold netStep
    dsimp only
    split
    · exact ⟨le_refl _, fun _ => rfl⟩
    · next c hc =>
      have hsum := sum_map_set Caller.budget hc (callerStep s.client c key).2
      unfold Net.budget
      dsimp only
      rcases callerStep_cases s.client c key with ⟨heq, _⟩ | ⟨_, ⟨hclient, hsame⟩ | hlt⟩
      · rw [heq] at hsum ⊢
        dsimp only at hsum ⊢
        exact ⟨by omega, fun _ => rfl⟩
      · exact ⟨by omega, fun _ => by rw [hclient]⟩
      · exact ⟨by omega, fun _ => by omega⟩
  | worker reported => exact ⟨le_refl _, fun _ => (workerStep_moves _ reported).next⟩
  | shutdown =>
    refine ⟨le_refl _, fun _ => ?_⟩
    show s.client.stop.next = s.client.next
    unfold stop
    split <;> rfl
  | cleanup =>
    refine ⟨le_refl _, fun _ => ?_⟩
    show s.client.cleanup.next = s.client.next
    unfold cleanup
    split <;> rfl

lemma submits_end {e : ℕ → NetEvent} (hfair : Fair e) :
    ∃ M, ∀ n, M ≤ n → (net e (n + 1)).client.next = (net e n).client.next := by
  obtain ⟨N, hN⟩ := hfair.finite
  have hbudget : ∀ n, N ≤ n → (net e (n + 1)).budget ≤ (net e n).budget :=
    fun n hn => (budget_step (hN n hn).1 (hN n hn).2).1
  obtain ⟨M, hNM, hM⟩ := exists_settled (f := fun n => (net e n).budget) hbudget
  exact ⟨M, fun n hn => (budget_step (hN n (by omega)).1 (hN n (by omega)).2).2 (hM n hn)⟩

/-! ## the worker goes round -/

/-- how far the worker is from `check` with an empty queue -/
def Client.rank (c : Client) : Nat :=
  2 * c.pending.length + match c.pc with
    | .drain => 1
    | .start _ => 2
    | .head => 2
    | .read => 3 + c.messages.length
    | .perform => 4 + c.active.length
    | .check => 5 + c.active.length
    | .exited => 0

def Client.Drained (c : Client) : Prop := c.pc = .check ∧ c.pending = []

lemma workerStep_rank {c : Client} (hrun : c.running) (hpc : c.pc ≠ .exited)
    (reported : List (Nat × Reply)) :
    (c.workerStep reported).Drained ∨ (c.workerStep reported).rank < c.rank := by
  obtain ⟨running, pc, pending, active, messages, answered, next, joining⟩ := c
  cases hrun
  cases pc with
  | head => exact .inr (lt_succ_self _)
  | drain =>
    cases pending with
    | nil => exact .inl ⟨rfl, rfl⟩
    | cons r rest =>
      right
      show 2 * rest.length + 2 < 2 * (rest.length + 1) + 1
      omega
  | start r => exact .inr (lt_succ_self _)
  | check =>
    right
    show 2 * pending.length + (4 + active.length) < 2 * pending.length + (5 + active.length)
    omega
  | perform =>
    right
    have hle := (filterMap_lookup_fst active reported).length_le
    rw [length_map] at hle
    show 2 * pending.length + (3 + (active.filterMap _).length)
      < 2 * pending.length + (4 + active.length)
    omega
  | read =>
    cases messages with
    | nil => exact .inr (lt_succ_self _)
    | cons m rest =>
      right
      show 2 * pending.length + (3 + rest.length) < 2 * pending.length + (3 + (rest.length + 1))
      omega
  | exited => exact absurd rfl hpc

lemma WorkerMoves.active {c c' : Client} {reported : List (Nat × Reply)} {r : Nat}
    (hm : WorkerMoves c reported c') (h : r ∈ c.active) : r ∈ c'.active ∨ r ∈ c'.settled := by
  cases hm with
  | starts => exact .inl (mem_append_left _ h)
  | @finishes r0 reply =>
    by_cases hr : r = r0
    · subst hr
      exact .inr (mem_map.2 ⟨(r, reply), mem_append_right _ mem_cons_self, rfl⟩)
    · exact .inl ((mem_erase_of_ne hr).2 h)
  | _ => exact .inl h

lemma workerStep_reported {c : Client} {r : Nat} (h : r ∈ c.messages.map Prod.fst)
    (hpc : c.pc = .read) (reported : List (Nat × Reply)) : r ∈ (c.workerStep reported).settled
      ∨ r ∈ (c.workerStep reported).messages.map Prod.fst
        ∧ (c.workerStep reported).messages.length < c.messages.length := by
  obtain ⟨running, pc, pending, active, messages, answered, next, joining⟩ := c
  cases hpc
  cases messages with
  | nil => cases h
  | cons m rest =>
    rcases mem_cons.1 h with rfl | hr
    · exact .inl (mem_map.2 ⟨m, mem_append_right _ mem_cons_self, rfl⟩)
    · exact .inr ⟨hr, lt_succ_self _⟩

section
variable {e : ℕ → NetEvent} (hfair : Fair e) (horder : ∀ n, Orderly (net e n) (e n))
variable (hrun : ∀ n, (net e n).client.running)

include horder hrun in
lemma client_step {n : ℕ} (hquiet : (net e (n + 1)).client.next = (net e n).client.next) :
    (net e (n + 1)).client = (net e n).client ∧ (∀ reported, e n ≠ .worker reported)
      ∨ ∃ reported, e n = .worker reported
        ∧ (net e (n + 1)).client = (net e n).client.workerStep reported := by
  have hnext := hrun (n + 1)
  have hexited := (tidy_net horder n).exited
  change (netStep (net e n) (e n)).client.next = _ at hquiet
  change (netStep (net e n) (e n)).client.running at hnext
  show (netStep (net e n) (e n)).client = _ ∧ _ ∨ ∃ _, _ ∧ (netStep (net e n) (e n)).client = _
  cases he : e n with
  | send =>
    rw [he] at hquiet
    exact absurd hquiet (succ_ne_self _)
  | complete => exact .inl ⟨rfl, fun _ => by simp⟩
  | caller i key =>
    rw [he] at hquiet
    rcases caller_client (net e n) i key with hc | hc
    · exact .inl ⟨hc, fun _ => by simp⟩
    · rw [hc] at hquiet
      exact absurd hquiet (succ_ne_self _)
  | worker reported => exact .inr ⟨reported, rfl, rfl⟩
  | shutdown =>
    rw [he] at hnext
    change (net e n).client.stop.running at hnext
    unfold stop at hnext
    rw [if_pos (hrun n)] at hnext
    cases hnext
  | cleanup =>
    refine .inl ⟨?_, fun _ => by simp⟩
    show (net e n).client.cleanup = _
    unfold cleanup
    rw [if_neg]
    intro hjoin
    exact absurd (hrun n) (by rw [hexited hjoin.2]; decide)

variable {M : ℕ} (hM : ∀ n, M ≤ n → (net e (n + 1)).client.next = (net e n).client.next)

include hfair horder hrun hM in
lemma leadsTo_drained : LeadsTo (M ≤ ·) (fun n => (net e n).client.Drained) := by
  refine leadsTo_of_fair (fun n => (net e n).client.rank)
    (fun n => ∃ reported, e n = .worker reported) hfair.worker fun n hn => ?_
  rcases client_step horder hrun (hM n hn) with ⟨hc, hother⟩ | ⟨reported, _, hc⟩
  · exact .inr ⟨le_succ_of_le hn, (congrArg rank hc).le,
      fun ⟨reported, h⟩ => absurd h (hother reported)⟩
  · have hpc : (net e n).client.pc ≠ .exited := by
      intro hex
      exact absurd (hrun n) (by rw [(tidy_net horder n).exited hex]; decide)
    rw [hc]
    rcases workerStep_rank (hrun n) hpc reported with hdrained | hlt
    · exact .inl hdrained
    · exact .inr ⟨le_succ_of_le hn, hlt.le, fun _ => hlt⟩

include hfair horder hrun hM in
lemma leadsTo_perform : LeadsTo (M ≤ ·) (fun n => (net e n).client.pc = .perform) := by
  have hcheck : LeadsTo (M ≤ ·)
      (fun n => M ≤ n ∧ (net e n).client.pc = .check) := by
    intro n hn
    obtain ⟨m, hm, hdrained⟩ := leadsTo_drained hfair horder hrun hM n hn
    exact ⟨m, hm, le_trans hn hm, hdrained.1⟩
  refine hcheck.trans (leadsTo_of_fair (fun _ => 0)
    (fun n => ∃ reported, e n = .worker reported) hfair.worker fun n hn => ?_)
  obtain ⟨hMn, hpc⟩ := hn
  rcases client_step horder hrun (hM n hMn) with ⟨hc, hother⟩ | ⟨reported, _, hc⟩
  · rw [hc]
    exact .inr ⟨⟨le_succ_of_le hMn, hpc⟩, le_refl _,
      fun ⟨reported, h⟩ => absurd h (hother reported)⟩
  · left
    rw [hc]
    unfold workerStep
    rw [hpc, hrun n]
    rfl

include hfair horder hrun hM in
lemma leadsTo_settled (r : ℕ) :
    LeadsTo (fun n => M ≤ n ∧ r ∈ (net e n).client.messages.map Prod.fst)
      (fun n => r ∈ (net e n).client.settled) := by
  refine leadsTo_of_fair (fun n => (net e n).client.messages.length)
    (fun n => ∃ reported, e n = .worker reported) hfair.worker fun n hn => ?_
  obtain ⟨hMn, hmsg⟩ := hn
  rcases client_step horder hrun (hM n hMn) with ⟨hc, hother⟩ | ⟨reported, _, hc⟩
  · rw [hc]
    exact .inr ⟨⟨le_succ_of_le hMn, hmsg⟩, le_refl _,
      fun ⟨reported, h⟩ => absurd h (hother reported)⟩
  · have hpc : (net e n).client.pc = .read := by
      by_contra hpc
      have hnil := (books_net e n).reading hpc
      rw [hnil] at hmsg
      cases hmsg
    rw [hc]
    rcases workerStep_reported hmsg hpc reported with hset | ⟨hmem, hlt⟩
    · exact .inl hset
    · exact .inr ⟨⟨le_succ_of_le hMn, hmem⟩, hlt.le, fun _ => hlt⟩

include hfair horder hrun hM in
/-- a client that is not stopped answers every request -/
lemma settled_of_running {n r : ℕ} (hr : r < (net e n).client.next) :
    ∃ m, r ∈ (net e m).client.settled := by
  obtain ⟨m, hm, hpc, hpending⟩ := leadsTo_drained hfair horder hrun hM (max n M) (le_max_right n M)
  have hnm : n ≤ m := le_trans (le_max_left n M) hm
  have hMm : M ≤ m := le_trans (le_max_right n M) hm
  have hmem := (tidy_net horder m).covered r (lt_of_lt_of_le hr (next_mono hnm))
  have hstarting : (net e m).client.starting = [] :=
    starting_of (fun r h => by rw [hpc] at h; cases h)
  rw [unanswered, hpending, hstarting, nil_append, nil_append, mem_append] at hmem
  rcases hmem with hactive | hset
  · have hagain : ∀ n, ∃ m, n ≤ m ∧ (net e m).client.pc = .perform := by
      intro k
      obtain ⟨k', hk', hperform⟩ :=
        leadsTo_perform hfair horder hrun hM (max k M) (le_max_right k M)
      exact ⟨k', le_trans (le_max_left k M) hk', hperform⟩
    obtain ⟨k, hk, hdone⟩ := hfair.libcurl hagain m r hactive
    -- a transfer that is gone has had its callback
    have hkept := keeps_until (Q := fun n => r ∈ (net e n).client.settled)
      (I := fun n => r ∈ (net e n).client.active) (N := m) (fun i hi hact => ?_) hactive k hk
    · rcases hkept with ⟨i, _, hset⟩ | hact
      · exact ⟨i, hset⟩
      · rcases hdone with hgone | hmsg
        · exact absurd hact hgone
        · obtain ⟨i, _, hset⟩ := leadsTo_settled hfair horder hrun hM r k ⟨le_trans hMm hk, hmsg⟩
          exact ⟨i, hset⟩
    · rcases client_step horder hrun (hM i (le_trans hMm hi)) with ⟨hc, _⟩ | ⟨reported, _, hc⟩
      · rw [hc]
        exact .inr hact
      · rw [hc]
        exact ((workerStep_moves _ reported).active hact).symm
  · exact ⟨m, hset⟩

end

/-! ## every call returns -/

def Net.Waits (s : Net) : Prop :=
  ∀ c ∈ s.callers, ∀ r, c.phase = .waiting r → r < s.client.next

lemma callerStep_waits {client : Client} {c : Caller}
    (h : ∀ r, c.phase = .waiting r → r < client.next) (key : String) {r : Nat}
    (hr : (callerStep client c key).2.phase = .waiting r) :
    r < (callerStep client c key).1.next := by
  revert hr
  unfold callerStep
  split
  · split
    · exact nofun
    · intro hr
      cases hr
      exact lt_succ_self _
  · split
    · exact h r
    · next reply _ =>
      intro hr
      cases reply with
      | error => cases hr
      | done status =>
        unfold Caller.resumed at hr
        dsimp only at hr
        split at hr <;> cases hr
  · exact h r

lemma Net.Waits.step {s : Net} (h : s.Waits) (e : NetEvent) : (netStep s e).Waits := by
  have hmono := (netStep_moves s e).next
  cases e with
  | complete maxRetries =>
    intro c hc r hr
    rcases mem_append.1 hc with hc | hc
    · exact h c hc r hr
    · rw [mem_singleton.1 hc] at hr
      cases hr
  | caller i key =>
    unfold netStep
    dsimp only
    split
    · exact h
    · next c0 hi =>
      intro c hc r hr
      have hmono : s.client.next ≤ (callerStep s.client c0 key).1.next := by
        unfold netStep at hmono
        simpa only [hi] using hmono
      rcases mem_or_eq_of_mem_set hc with hc | rfl
      · exact lt_of_lt_of_le (h c hc r hr) hmono
      · exact callerStep_waits (h c0 (mem_of_getElem? hi)) key hr
  | send | worker | shutdown | cleanup => exact fun c hc r hr => lt_of_lt_of_le (h c hc r hr) hmono

lemma waits_net (e : ℕ → NetEvent) (n : ℕ) : (net e n).Waits := by
  refine states_inv (I := Net.Waits) ?_ (fun n h => h.step (e n)) n
  exact fun c hc => absurd hc not_mem_nil

section
variable {e : ℕ → NetEvent} {n m i : ℕ} {c : Caller}

lemma callers_persist (hnm : n ≤ m) (h : (net e n).callers[i]? = some c) :
    ∃ c', (net e m).callers[i]? = some c' ∧ c'.rank ≤ c.rank := by
  induction m, hnm using le_induction with
  | base => exact ⟨c, h, le_refl _⟩
  | succ m hm ih =>
    obtain ⟨c1, h1, hle⟩ := ih
    rcases callers_step h1 (e m) with hsame | ⟨c2, h2, hlt⟩
    · exact ⟨c1, hsame, hle⟩
    · exact ⟨c2, h2, (hlt.trans_le hle).le⟩

lemma Caller.rank_eq_zero (c : Caller) : c.rank = 0 ↔ c.phase = .returned := by
  unfold Caller.rank
  cases c.phase with
  | choosing | waiting r => exact ⟨fun h => absurd h (succ_ne_zero _), nofun⟩
  | returned => exact ⟨fun _ => rfl, fun _ => rfl⟩

lemma nearer (hc : (net e n).callers[i]? = some c) (hphase : c.phase ≠ .returned)
    (hready : ∀ r, c.phase = .waiting r → r ∈ (net e n).client.settled) {key : String}
    (he : e n = .caller i key) :
    ∃ c', (net e (n + 1)).callers[i]? = some c' ∧ c'.rank < c.rank := by
  have hstep : (net e (n + 1)).callers[i]? = some (callerStep (net e n).client c key).2 := by
    show (netStep (net e n) (e n)).callers[i]? = _
    rw [he]
    unfold netStep
    dsimp only
    rw [hc]
    exact getElem?_set_self (List.getElem?_eq_some_iff.1 hc).1
  rcases callerStep_cases (net e n).client c key with ⟨_, hret | ⟨r, hwait, hnone⟩⟩ | ⟨hlt, _⟩
  · exact absurd hret hphase
  · obtain ⟨⟨r', reply⟩, hmem, rfl⟩ := mem_map.1 (hready r hwait)
    have := lookup_eq_none_iff.1 hnone _ hmem
    simp at this
  · exact ⟨_, hstep, hlt⟩

/-- where every request is answered, every call returns -/
lemma returns_of_settled (hfair : Fair e)
    (hall : ∀ n r, r < (net e n).client.next → ∃ m, r ∈ (net e m).client.settled) (i : ℕ) :
    LeadsTo (fun n => ∃ c, (net e n).callers[i]? = some c)
      (fun n => ∃ c, (net e n).callers[i]? = some c ∧ c.rank = 0) := by
  refine LeadsTo.rank (fun n => ((net e n).callers[i]?.map Caller.rank).getD 0) ?_
  intro n hn
  obtain ⟨c, hc⟩ := hn
  by_cases hphase : c.phase = .returned
  · exact ⟨n, le_refl _, .inl ⟨c, hc, c.rank_eq_zero.2 hphase⟩⟩
  · -- the time from which the caller has nothing to wait for
    have hready : ∃ m0, ∀ m, m0 ≤ m → ∀ r, c.phase = .waiting r → r ∈ (net e m).client.settled := by
      cases hp : c.phase with
      | choosing => exact ⟨0, nofun⟩
      | waiting r =>
        obtain ⟨m0, hm0⟩ := hall n r (waits_net e n c (mem_of_getElem? hc) r hp)
        refine ⟨m0, fun m hm r' h => ?_⟩
        cases h
        exact (settled_mono hm).subset hm0
      | returned => exact absurd hp hphase
    obtain ⟨m0, hm0⟩ := hready
    obtain ⟨c1, hc1, _⟩ := callers_persist (le_max_left n m0) hc
    obtain ⟨m, hm, key, he⟩ :=
      hfair.callers (max n m0) i (List.getElem?_eq_some_iff.1 hc1).1
    have hkept := keeps_until
      (Q := fun k => ∃ c', (net e k).callers[i]? = some c' ∧ c'.rank < c.rank)
      (I := fun k => (net e k).callers[i]? = some c) (N := n)
      (fun k _ hk => (callers_step hk (e k)).symm) hc m (le_trans (le_max_left _ _) hm)
    have hless : ∃ k, n ≤ k ∧ ∃ c', (net e k).callers[i]? = some c' ∧ c'.rank < c.rank := by
      rcases hkept with hsoon | hsame
      · exact hsoon
      · have hm1 : m0 ≤ m := le_trans (le_max_right _ _) hm
        exact ⟨m + 1, by omega, nearer hsame hphase (hm0 m hm1) he⟩
    obtain ⟨k, hk, c', hc', hlt⟩ := hless
    refine ⟨k, hk, .inr ⟨⟨c', hc'⟩, ?_⟩⟩
    rw [hc, hc']
    exact hlt

end

/-- in a fair run that is shut down only when every request has had its callback, and submits none
after that, each request gets exactly one callback and each `complete` returns -/
theorem answered_once_orderly (e : ℕ → NetEvent) (hfair : Fair e)
    (horder : ∀ n, Orderly (net e n) (e n)) : (∀ n r, r < (net e n).client.next →
        ∃ m, ∀ k, m ≤ k → (net e k).client.settled.count r = 1)
      ∧ ∀ n i, i < (net e n).callers.length →
        ∃ m, ∀ k, m ≤ k → (net e k).callers[i]?.map Caller.phase = some .returned := by
  have hall : ∀ n r, r < (net e n).client.next → ∃ m, r ∈ (net e m).client.settled := by
    intro n r hr
    by_cases hrun : ∀ n, (net e n).client.running
    · obtain ⟨M, hM⟩ := submits_end hfair
      exact settled_of_running hfair horder hrun hM hr
    · push Not at hrun
      obtain ⟨m, hm⟩ := hrun
      exact ⟨max n m, settled_of_stopped horder hr (Bool.eq_false_iff.2 hm)⟩
  constructor
  · intro n r hr
    obtain ⟨m, hm⟩ := hall n r hr
    refine ⟨m, fun k hk => le_antisymm (settled_count_le e k r) ?_⟩
    exact count_pos_iff.2 ((settled_mono hk).subset hm)
  · intro n i hi
    obtain ⟨m, _, c, hc, hrank⟩ :=
      returns_of_settled hfair hall i n ⟨_, getElem?_eq_getElem hi⟩
    refine ⟨m, fun k hk => ?_⟩
    obtain ⟨c', hc', hle⟩ := callers_persist hk hc
    rw [hc', Option.map_some, c'.rank_eq_zero.1 (le_zero.1 (hrank ▸ hle))]

/-! ## a shutdown with a request in flight -/

/-- the inputs of `l`, and then the worker and the first caller in turn -/
def script (l : List NetEvent) (n : ℕ) : NetEvent :=
  l[n]?.getD (if n % 2 = 0 then .worker [] else .caller 0 "k")

lemma script_worker (l : List NetEvent) (n : ℕ) : script l (2 * (l.length + n)) = .worker [] := by
  have hlen : l.length ≤ 2 * (l.length + n) := by omega
  unfold script
  rw [getElem?_eq_none hlen, Option.getD_none, if_pos (by omega)]

lemma script_caller (l : List NetEvent) (n : ℕ) :
    script l (2 * (l.length + n) + 1) = .caller 0 "k" := by
  have hlen : l.length ≤ 2 * (l.length + n) + 1 := by omega
  unfold script
  rw [getElem?_eq_none hlen, Option.getD_none, if_neg (by omega)]

lemma script_after {l : List NetEvent} {n : ℕ} (hn : l.length ≤ n) :
    script l n = .worker [] ∨ script l n = .caller 0 "k" := by
  unfold script
  rw [getElem?_eq_none hn, Option.getD_none]
  split
  · exact .inl rfl
  · exact .inr rfl

section
variable {l : List NetEvent} {s : Net} (hs : net (script l) l.length = s)
variable (hpc : s.client.pc = .exited) (hfixed : netStep s (.caller 0 "k") = s)

include hs hpc hfixed

lemma script_fixed (n : ℕ) (hn : l.length ≤ n) : net (script l) n = s := by
  refine states_fixed hs (fun n hn => ?_) n hn
  rcases script_after hn with h | h
  · rw [h]
    show { s with client := s.client.workerStep [] } = s
    unfold workerStep
    rw [hpc]
  · rw [h]
    exact hfixed

lemma script_fair (hone : s.callers.length ≤ 1) : Fair (script l) where
  worker := fun n => ⟨_, by omega, [], script_worker l n⟩
  callers := by
    intro n i hi
    obtain ⟨c, hc, _⟩ := callers_persist (le_max_left n l.length) (getElem?_eq_getElem hi)
    rw [script_fixed hs hpc hfixed _ (le_max_right _ _)] at hc
    have hi0 : i = 0 := by
      have := (List.getElem?_eq_some_iff.1 hc).1
      omega
    subst hi0
    exact ⟨_, by omega, "k", script_caller l n⟩
  finite := by
    refine ⟨l.length, fun n hn => ?_⟩
    rcases script_after hn with h | h
    all_goals
      rw [h]
      exact ⟨by decide, fun _ => by simp⟩
  libcurl := by
    intro hagain
    obtain ⟨m, hm, hperform⟩ := hagain l.length
    rw [script_fixed hs hpc hfixed m hm, hpc] at hperform
    cases hperform

end

/-- `shutdown` comes while the transfer of a `complete` is in progress -/
def dropped : List NetEvent :=
  [.complete 0, .caller 0 "k", .worker [], .worker [], .worker [], .worker [], .worker [],
    .shutdown, .worker [], .worker [], .worker [], .cleanup]

theorem shutdown_drops_transfer :
    Fair (script dropped) ∧ 0 < (net (script dropped) 2).client.next
      ∧ (∀ n, 0 ∉ (net (script dropped) n).client.settled) ∧ ∀ n, 12 ≤ n →
        (net (script dropped) n).callers[0]?.map Caller.phase = some (.waiting 0) := by
  have hend : ∀ n, 12 ≤ n → net (script dropped) n = net (script dropped) 12 :=
    script_fixed (l := dropped) rfl rfl rfl
  refine ⟨script_fair rfl rfl rfl (le_refl _), by decide, ?_, ?_⟩
  · intro n hmem
    have hlater := (settled_mono (le_max_left n 12)).subset hmem
    rw [hend _ (le_max_right _ _)] at hlater
    cases hlater
  · intro n hn
    rw [hend n hn]
    rfl

/-- the transfer ends with status 200, the caller returns, and then comes `shutdown` -/
def finished : List NetEvent :=
  [.complete 0, .caller 0 "k", .worker [], .worker [], .worker [], .worker [], .worker [],
    .worker [(0, .done 200)], .worker [], .worker [], .caller 0 "k", .shutdown, .worker [], .cleanup]

instance (s : Net) (e : NetEvent) : Decidable (Orderly s e) :=
  decidable_of_iff ((¬ (netStep s e).client.next = s.client.next → s.client.running)
      ∧ (e = .shutdown → s.client.running → s.client.unanswered = []))
    ⟨fun h => ⟨h.1, h.2⟩, fun h => ⟨h.submit, h.stop⟩⟩

theorem answered_once_finished :
    Fair (script finished)
      ∧ (∃ m, ∀ k, m ≤ k → (net (script finished) k).client.settled.count 0 = 1) ∧ ∃ m, ∀ k, m ≤ k →
        (net (script finished) k).callers[0]?.map Caller.phase = some .returned := by
  have hfair : Fair (script finished) := script_fair rfl rfl rfl (le_refl _)
  have horder : ∀ n, Orderly (net (script finished) n) (script finished n) := by
    intro n
    by_cases hn : n < 14
    · revert n
      decide
    · have hend : net (script finished) n = net (script finished) 14 :=
        script_fixed (l := finished) rfl rfl rfl n (Nat.le_of_not_lt hn)
      rw [hend]
      rcases script_after (l := finished) (Nat.le_of_not_lt hn) with h | h
      · rw [h]
        decide
      · rw [h]
        decide
  have hall := answered_once_orderly (script finished) hfair horder
  exact ⟨hfair, hall.1 2 0 (by decide), hall.2 1 0 (by decide)⟩

end AegisGate.Curl
