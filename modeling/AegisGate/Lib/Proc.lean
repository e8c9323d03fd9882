import AegisGate.Lib.Run

/-!
# Programs over atomic calls

A service talks to its store by calls, each of which is atomic while a request as a whole is not.
A request is written once, as a `Proc` over the calls, and then has two meanings:

* `run exec p s`  all the calls of `p` one after the other, with nothing in between;
* `Pool.step exec P e`  a pool of requests in progress: a new request comes in, or one of the
  requests makes its next call.

`wp ok ans past p Q` says that `p` makes only calls that `ok` allows after the calls and answers
`past`, whatever the answers are as long as `ans` admits them, and that it returns with `Q`.  Its
equations are `wp_pure`, `wp_op` and `wp_bind`; `wp_frame` adds a fact about the past
that the calls keep.  It has two rules: `run_wp` for a request on its own, and `Pool.step_inv` for
pools, where what every request keeps to holds in every interleaving.
-/

/-- a program over atomic calls; the call `c` is answered by an `R c` -/
inductive Proc (C : Type) (R : C → Type) (α : Type) : Type
  | ret (a : α)
  | call (c : C) (k : R c → Proc C R α)

namespace Proc

variable {C : Type} {R : C → Type} {α β : Type}

protected def bind : Proc C R α → (α → Proc C R β) → Proc C R β
  | ret a, f => f a
  | call c k, f => call c (fun r => (k r).bind f)

instance : Monad (Proc C R) where
  pure := ret
  bind := Proc.bind

def op (c : C) : Proc C R (R c) := call c ret

/-! ## one request alone -/

section
variable {σ : Type} (exec : (c : C) → σ → R c × σ)

def run : Proc C R α → σ → α × σ
  | ret a, s => (a, s)
  | call c k, s => run (k (exec c s).1) (exec c s).2

@[simp] lemma run_pure (a : α) (s : σ) : run exec (pure a : Proc C R α) s = (a, s) := rfl

@[simp] lemma run_op (c : C) (s : σ) : run exec (op c) s = exec c s := rfl

@[simp] lemma run_bind (p : Proc C R α) (f : α → Proc C R β) (s : σ) :
    run exec (p >>= f) s = run exec (f (run exec p s).1) (run exec p s).2 := by
  induction p generalizing s with
  | ret a => rfl
  | call c k ih => exact ih (exec c s).1 (exec c s).2

variable {exec}

/-- what every call keeps, a program keeps -/
lemma run_inv {I : σ → Prop} (hcall : ∀ c s, I s → I (exec c s).2) (p : Proc C R α) :
    ∀ s, I s → I (run exec p s).2 := by
  induction p with
  | ret a => intro s hs; exact hs
  | call c k ih => intro s hs; exact ih _ _ (hcall c s hs)

end

/-! ## what a request keeps to -/

section
variable (ok : List ((c : C) × R c) → C → Prop) (ans : (c : C) → R c → Prop)

def wp : List ((c : C) × R c) → Proc C R α → (List ((c : C) × R c) → α → Prop) → Prop
  | past, ret a, Q => Q past a
  | past, call c k, Q => ok past c ∧ ∀ r, ans c r → wp (⟨c, r⟩ :: past) (k r) Q

variable {ok ans} {Q : List ((c : C) × R c) → α → Prop}

@[simp] theorem wp_pure (past : List ((c : C) × R c)) (a : α)
    (Q : List ((c : C) × R c) → α → Prop) : wp ok ans past (pure a : Proc C R α) Q = Q past a := rfl

@[simp] theorem wp_op (past : List ((c : C) × R c)) (c : C)
    (Q : List ((c : C) × R c) → R c → Prop) :
    wp ok ans past (op c) Q = (ok past c ∧ ∀ r, ans c r → Q (⟨c, r⟩ :: past) r) := rfl

@[simp] theorem wp_bind (p : Proc C R α) (f : α → Proc C R β) (past : List ((c : C) × R c))
    (Q : List ((c : C) × R c) → β → Prop) :
    wp ok ans past (p >>= f) Q = wp ok ans past p (fun past' a => wp ok ans past' (f a) Q) := by
  induction p generalizing past with
  | ret a => rfl
  | call c k ih =>
    show (ok past c ∧ _) = (ok past c ∧ _)
    have e : ∀ r, wp ok ans (⟨c, r⟩ :: past) ((k r).bind f) Q = _ := fun r => ih r _
    simp only [e]

/-- a fact about the past that the allowed calls keep is known at the end, and the rules may be
exchanged for ones that follow from it -/
theorem wp_frame {ok' : List ((c : C) × R c) → C → Prop} {ans' : (c : C) → R c → Prop}
    {F : List ((c : C) × R c) → Prop} {Q' : List ((c : C) × R c) → α → Prop}
    (hstep : ∀ past c, F past → ok past c →
      ok' past c ∧ ∀ r, ans' c r → ans c r ∧ F (⟨c, r⟩ :: past))
    (hQ : ∀ past a, F past → Q past a → Q' past a) (p : Proc C R α) :
    ∀ past, F past → wp ok ans past p Q → wp ok' ans' past p Q' := by
  induction p with
  | ret a => intro past hF hp; exact hQ past a hF hp
  | call c k ih =>
    intro past hF hp
    obtain ⟨hok, hans⟩ := hstep past c hF hp.1
    exact ⟨hok, fun r hr => ih r _ (hans r hr).2 (hp.2 r (hans r hr).1)⟩

lemma wp_mono {Q' : List ((c : C) × R c) → α → Prop} {p : Proc C R α}
    {past : List ((c : C) × R c)} (h : ∀ past a, Q past a → Q' past a)
    (hp : wp ok ans past p Q) : wp ok ans past p Q' :=
  wp_frame (F := fun _ => True) (fun _ _ _ hc => ⟨hc, fun _ ha => ⟨ha, trivial⟩⟩)
    (fun past a _ => h past a) p past trivial hp

lemma wp_weaken {ok' : List ((c : C) × R c) → C → Prop} {p : Proc C R α}
    {past : List ((c : C) × R c)} (h : ∀ past c, ok past c → ok' past c)
    (hp : wp ok ans past p Q) : wp ok' ans past p Q :=
  wp_frame (F := fun _ => True) (fun past c _ hc => ⟨h past c hc, fun _ ha => ⟨ha, trivial⟩⟩)
    (fun _ _ _ hQ => hQ) p past trivial hp

/-- sequential rule: what every allowed call keeps, of the past and the store, holds after the run -/
theorem run_wp {σ : Type} {exec : (c : C) → σ → R c × σ} {J : List ((c : C) × R c) → σ → Prop}
    (hstep : ∀ past s c, J past s → ok past c →
      ans c (exec c s).1 ∧ J (⟨c, (exec c s).1⟩ :: past) (exec c s).2) (p : Proc C R α) :
    ∀ past s, J past s → wp ok ans past p Q →
      ∃ past', J past' (run exec p s).2 ∧ Q past' (run exec p s).1 := by
  induction p with
  | ret a => intro past s hJ hp; exact ⟨past, hJ, hp⟩
  | call c k ih =>
    intro past s hJ hp
    obtain ⟨hans, hJ'⟩ := hstep past s c hJ hp.1
    exact ih (exec c s).1 _ _ hJ' (hp.2 _ hans)

end

/-! ## requests in progress -/

/-- a request in progress: the calls it has made, and what it still has to do -/
structure Thread (C : Type) (R : C → Type) (α : Type) where
  past : List ((c : C) × R c) := []
  rest : Proc C R α

structure Pool (σ : Type) (C : Type) (R : C → Type) (α : Type) where
  store : σ
  threads : List (Thread C R α) := []

inductive Event (C : Type) (R : C → Type) (α : Type) where
  | spawn (p : Proc C R α)
  | step (i : ℕ)

namespace Pool

variable {σ : Type} (exec : (c : C) → σ → R c × σ) {P : Pool σ C R α} {c : C} {e : Event C R α}
  {past : List ((c : C) × R c)} {i : ℕ} {ans : (c : C) → R c → Prop}
  {ok : List ((c : C) × R c) → C → Prop}

/-- the call that the event makes, with the calls its thread has made before -/
def pending (P : Pool σ C R α) : Event C R α → Option (List ((c : C) × R c) × C)
  | .spawn _ => none
  | .step i =>
    match P.threads[i]? with
    | some ⟨past, call c _⟩ => some (past, c)
    | _ => none

def step (P : Pool σ C R α) : Event C R α → Pool σ C R α
  | .spawn p => { P with threads := P.threads ++ [⟨[], p⟩] }
  | .step i =>
    match P.threads[i]? with
    | some ⟨past, call c k⟩ =>
      { store := (exec c P.store).2
        threads := P.threads.set i ⟨⟨c, (exec c P.store).1⟩ :: past, k (exec c P.store).1⟩ }
    | _ => P

/-- the store changes by the pending call, and not at all without one -/
lemma step_store (P : Pool σ C R α) (e : Event C R α) :
    (P.step exec e).store = match P.pending e with
      | some (_, c) => (exec c P.store).2
      | none => P.store := by
  cases e with
  | spawn p => rfl
  | step i =>
    simp only [step, pending]
    split <;> rfl

variable {exec}

/-- every thread keeps to `ok` -/
def Kept (ok : List ((c : C) × R c) → C → Prop) (ans : (c : C) → R c → Prop)
    (P : Pool σ C R α) : Prop :=
  ∀ t ∈ P.threads, wp ok ans t.past t.rest (fun _ _ => True)

lemma Kept.pending (hP : P.Kept ok ans) (h : P.pending e = some (past, c)) : ok past c := by
  cases e with
  | spawn p => cases h
  | step i =>
    simp only [Pool.pending] at h
    split at h
    · rename_i past' c' k hi
      cases h
      exact (hP _ (List.mem_of_getElem? hi)).1
    · cases h

/-- pool rule: a fact about requests that holds of a new one, and after the next call of one for
which it holds, holds of every request in progress -/
lemma step_all {T : Thread C R α → Prop} (hspawn : ∀ p, e = .spawn p → T ⟨[], p⟩)
    (hcall : ∀ past c k, T ⟨past, call c k⟩ →
      T ⟨⟨c, (exec c P.store).1⟩ :: past, k (exec c P.store).1⟩) (hP : ∀ t ∈ P.threads, T t) :
    ∀ t ∈ (P.step exec e).threads, T t := by
  cases e with
  | spawn p => exact List.forall_mem_append.2 ⟨hP, List.forall_mem_singleton.2 (hspawn p rfl)⟩
  | step i =>
    simp only [step]
    split
    · rename_i past c k hi
      intro t ht
      rcases List.mem_or_eq_of_mem_set ht with ht | rfl
      · exact hP t ht
      · exact hcall past c k (hP _ (List.mem_of_getElem? hi))
    · exact hP

/-- … so a new request keeps to `ok` from the start, and answers are admitted, and every thread
keeps to `ok` after the event -/
theorem step_inv (hans : ∀ c, ans c (exec c P.store).1)
    (hspawn : ∀ p, e = .spawn p → wp ok ans [] p (fun _ _ => True)) (hP : P.Kept ok ans) :
    (P.step exec e).Kept ok ans :=
  step_all (T := fun t => wp ok ans t.past t.rest fun _ _ => True) hspawn
    (fun _ c _ h => h.2 _ (hans c)) hP

/-- a step of a request that has a call to make -/
lemma step_eq {k : R c → Proc C R α} (h : P.threads[i]? = some ⟨past, call c k⟩) :
    P.step exec (.step i) =
      { store := (exec c P.store).2
        threads := P.threads.set i ⟨⟨c, (exec c P.store).1⟩ :: past, k (exec c P.store).1⟩ } := by
  simp only [step, h]

lemma pending_iff :
    P.pending (.step i) = some (past, c) ↔ ∃ k, P.threads[i]? = some ⟨past, call c k⟩ := by
  constructor
  · intro h
    simp only [Pool.pending] at h
    split at h
    · rename_i past' c' k hi
      cases h
      exact ⟨k, hi⟩
    · cases h
  · rintro ⟨k, hi⟩
    simp only [Pool.pending, hi]

lemma step_of_not_pending (h : P.pending (.step i) = none) : P.step exec (.step i) = P := by
  simp only [step]
  split
  · rename_i past c k hi
    rw [pending_iff.2 ⟨k, hi⟩] at h
    cases h
  · rfl

end Pool

end Proc
