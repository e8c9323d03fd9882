import Mathlib.Data.List.Chain
import Mathlib.Logic.Relation
import Mathlib.Order.WellFounded

/-!
# Runs of transition systems

Two kinds of systems are used by the development:

* `exec step s l`  a deterministic system fed with the inputs `l`, one after the other, and
  `trace f s l` its outputs;
* `Reach R s t`  a step relation, taken any number of times.

`Along step P s l` says that `P` holds at every step of the run, and `Stuck R s` that no step is
possible from `s`.  The rules: `exec_inv`, `exec_inv_inputs`, `trace_inv` and `Reach.inv` lift what
one step preserves to whole runs, `along_congr` does the same for an equivalence, `isChain_history`
reads the values of an observation over a run step by step, `exec_fixed` is the frame rule (a state
no input changes), and `Halts.of_measure` and `Halts.of_rank` give that every run of a step relation
is finite, so that it comes to a state without a step (`Halts.exists_stuck`).  `Ends R P s` adds what
holds there, and is shown step by step (`Ends.of_step`, `Ends.of_stuck`).  `reach_of_play` turns an
evaluated list of events into a run.
-/

namespace Run

open List Relation

/-! ## deterministic systems -/

section
variable {σ α : Type*} {step : σ → α → σ} {P : α → Prop} {I : σ → Prop} {s : σ}

section
variable (step : σ → α → σ)

def exec (s : σ) (l : List α) : σ := l.foldl step s

@[simp] lemma exec_nil (s : σ) : exec step s [] = s := rfl

@[simp] lemma exec_cons (s : σ) (a : α) (l : List α) :
    exec step s (a :: l) = exec step (step s a) l := rfl

lemma exec_append (s : σ) (l1 l2 : List α) :
    exec step s (l1 ++ l2) = exec step (exec step s l1) l2 := foldl_append

end

/-- invariant rule: the inputs satisfy `P`, and such an input keeps `I` -/
theorem exec_inv (hstep : ∀ s a, P a → I s → I (step s a)) (l : List α) :
    ∀ s, I s → (∀ a ∈ l, P a) → I (exec step s l) := by
  induction l with
  | nil => intro s hs _; exact hs
  | cons a l ih =>
    intro s hs hl
    exact ih _ (hstep s a (hl a mem_cons_self) hs)
      (fun b hb => hl b (mem_cons_of_mem _ hb))

/-- invariant rule over the inputs so far and the state after them -/
theorem exec_inv_inputs {I : List α → σ → Prop} (h0 : I [] s)
    (hstep : ∀ l t a, I l t → I (l ++ [a]) (step t a)) (l : List α) : I l (exec step s l) := by
  induction l using List.reverseRecOn with
  | nil => exact h0
  | append_singleton l a ih =>
    rw [exec_append]
    exact hstep l _ a ih

/-- a counter that every step raises to a measured value is the highest value measured so far -/
lemma exec_lt_iff (peak value : σ → ℕ) (hI : ∀ s a, I s → P a → I (step s a))
    (hpeak : ∀ s a, I s → P a → peak (step s a) = max (peak s) (value (step s a))) (n : ℕ)
    (l : List α) : ∀ s, I s → (∀ a ∈ l, P a) → peak s = value s →
      (peak (exec step s l) < n ↔ ∀ l', l' <+: l → value (exec step s l') < n) := by
  induction l using List.reverseRecOn with
  | nil =>
    intro s _ _ h0
    rw [exec_nil, h0]
    refine ⟨fun h l' hl' => ?_, fun h => h [] (prefix_refl _)⟩
    rw [prefix_nil.1 hl']
    exact h
  | append_singleton l a ih =>
    intro s hs hl h0
    have hl' : ∀ b ∈ l, P b := fun b hb => hl b (mem_append_left _ hb)
    have ha : P a := hl a (by simp)
    have hIl : I (exec step s l) := exec_inv (fun s b hb h => hI s b h hb) l s hs hl'
    have hlast : exec step s (l ++ [a]) = step (exec step s l) a := by
      rw [exec_append, exec_cons, exec_nil]
    rw [hlast, hpeak _ a hIl ha, Nat.max_lt, ih s hs hl' h0, ← hlast]
    constructor
    · rintro ⟨h1, h2⟩ l1 hl1
      rcases prefix_concat_iff.1 hl1 with rfl | hl1
      · exact h2
      · exact h1 l1 hl1
    · intro h
      exact ⟨fun l1 hl1 => h l1 (hl1.trans (prefix_append _ _)), h _ (prefix_refl _)⟩

theorem exec_fixed (h : ∀ a, step s a = s) (l : List α) : exec step s l = s := by
  induction l with
  | nil => rfl
  | cons a l ih => rw [exec_cons, h, ih]

end

/-! ## what holds at every step -/

section
variable {σ α β : Type*} {step : σ → α → σ} {P Q : σ → α → Prop} {I : σ → Prop} {A : α → Prop}
  {ι : Type*} {l : List α}

/-- `P` holds at every step of the run, of the state before the step and its input -/
def Along (step : σ → α → σ) (P : σ → α → Prop) : σ → List α → Prop
  | _, [] => True
  | s, a :: l => P s a ∧ Along step P (step s a) l

instance decidableAlong (P : σ → α → Prop) [∀ s a, Decidable (P s a)] :
    ∀ s l, Decidable (Along step P s l)
  | _, [] => isTrue trivial
  | s, a :: l =>
    have := decidableAlong P (step s a) l
    inferInstanceAs (Decidable (_ ∧ _))

lemma along_append (l1 l2 : List α) : ∀ s,
    (Along step P s (l1 ++ l2) ↔ Along step P s l1 ∧ Along step P (exec step s l1) l2) := by
  induction l1 with
  | nil => intro s; exact ⟨fun h => ⟨trivial, h⟩, And.right⟩
  | cons a l1 ih =>
    intro s
    rw [cons_append, Along, ih, Along, exec_cons, and_assoc]

/-- two step properties that agree on the invariant states agree along runs, when either of them
keeps the invariant -/
theorem along_congr (hiff : ∀ s a, I s → A a → (P s a ↔ Q s a))
    (hI : ∀ s a, I s → A a → Q s a → I (step s a)) (l : List α) :
    ∀ s, I s → (∀ a ∈ l, A a) → (Along step P s l ↔ Along step Q s l) := by
  induction l with
  | nil => intro s _ _; exact Iff.rfl
  | cons a l ih =>
    intro s hs hl
    have ha := hl a mem_cons_self
    have hrest := fun hQ => ih (step s a) (hI s a hs ha hQ)
      (fun b hb => hl b (mem_cons_of_mem _ hb))
    constructor
    · rintro ⟨hP, hP'⟩
      have hQ := (hiff s a hs ha).1 hP
      exact ⟨hQ, (hrest hQ).1 hP'⟩
    · rintro ⟨hQ, hQ'⟩
      exact ⟨(hiff s a hs ha).2 hQ, (hrest hQ).2 hQ'⟩

/-- `P` holds along a run when it holds at every place where the run can be split -/
lemma along_iff_split (l : List α) : ∀ s,
    (Along step P s l ↔ ∀ l1 a l2, l = l1 ++ a :: l2 → P (exec step s l1) a) := by
  induction l with
  | nil =>
    intro s
    refine ⟨fun _ l1 a l2 h => ?_, fun _ => trivial⟩
    exact absurd h.symm (append_ne_nil_of_right_ne_nil l1 (cons_ne_nil a l2))
  | cons b l ih =>
    intro s
    rw [Along, ih (step s b)]
    constructor
    · rintro ⟨hb, hrest⟩ l1 a l2 h
      cases l1 with
      | nil =>
        cases h
        exact hb
      | cons c l1 =>
        cases h
        exact hrest l1 a l2 rfl
    · intro h
      refine ⟨h [] b l rfl, fun l1 a l2 hl => ?_⟩
      exact h (b :: l1) a l2 (by rw [hl, cons_append])

lemma Along.mono (h : ∀ s a, P s a → Q s a) {s : σ} (hP : Along step P s l) : Along step Q s l := by
  rw [along_iff_split] at hP ⊢
  exact fun l1 a l2 hl => h _ a (hP l1 a l2 hl)

lemma along_and (l : List α) (s : σ) :
    Along step (fun s a => P s a ∧ Q s a) s l ↔ Along step P s l ∧ Along step Q s l := by
  simp only [along_iff_split]
  constructor
  · intro h
    exact ⟨fun l1 a l2 hl => (h l1 a l2 hl).1, fun l1 a l2 hl => (h l1 a l2 hl).2⟩
  · rintro ⟨hP, hQ⟩ l1 a l2 hl
    exact ⟨hP l1 a l2 hl, hQ l1 a l2 hl⟩

lemma along_forall {P : ι → σ → α → Prop} (l : List α) :
    ∀ s, (∀ i, Along step (P i) s l) ↔ Along step (fun s a => ∀ i, P i s a) s l := by
  induction l with
  | nil => intro s; exact ⟨fun _ => trivial, fun _ _ => trivial⟩
  | cons a l ih =>
    intro s
    constructor
    · intro h
      exact ⟨fun i => (h i).1, (ih _).1 fun i => (h i).2⟩
    · intro h i
      exact ⟨h.1 i, (ih _).2 h.2 i⟩

/-- invariant rule: in `I`-states every step satisfies `P` and keeps `I` -/
lemma along_of_inv (hstep : ∀ s a, I s → A a → P s a ∧ I (step s a)) (l : List α) :
    ∀ s, I s → (∀ a ∈ l, A a) → Along step P s l := by
  induction l with
  | nil => intro s _ _; exact trivial
  | cons a l ih =>
    intro s hs hl
    obtain ⟨hP, hI⟩ := hstep s a hs (hl a mem_cons_self)
    exact ⟨hP, ih _ hI fun b hb => hl b (mem_cons_of_mem _ hb)⟩

/-- invariant rule: steps that satisfy `Q` keep `I`, so `I` holds in every state of the run -/
theorem Along.inv (hI : ∀ s a, I s → A a → Q s a → I (step s a)) (l : List α) :
    ∀ s, I s → (∀ a ∈ l, A a) → Along step Q s l → ∀ l', l' <+: l → I (exec step s l') := by
  induction l with
  | nil =>
    intro s hs _ _ l' hl'
    rw [prefix_nil.1 hl']
    exact hs
  | cons a l ih =>
    intro s hs hl hQ l' hl'
    cases l' with
    | nil => exact hs
    | cons b l' =>
      obtain ⟨rfl, htail⟩ := cons_prefix_cons.1 hl'
      exact ih _ (hI s b hs (hl b mem_cons_self) hQ.1)
        (fun c hc => hl c (mem_cons_of_mem _ hc)) hQ.2 l' htail

lemma Along.of_inv (hstep : ∀ s a, I s → Q s a → P s a ∧ I (step s a)) :
    ∀ {s : σ}, I s → Along step Q s l → Along step P s l := by
  induction l with
  | nil => intro s _ _; exact trivial
  | cons a l ih =>
    intro s hs h
    obtain ⟨hP, hI⟩ := hstep s a hs h.1
    exact ⟨hP, ih hI h.2⟩

/-- what holds in every state of the run holds before every step -/
lemma along_of_states {P : σ → Prop} (l : List α) : ∀ s,
    (∀ l', l' <+: l → P (exec step s l')) → Along step (fun s _ => P s) s l := by
  induction l with
  | nil => intro s _; exact trivial
  | cons a l ih =>
    intro s h
    refine ⟨h [] nil_prefix, ih _ fun l' hl' => ?_⟩
    exact h (a :: l') (cons_prefix_cons.2 ⟨rfl, hl'⟩)

/-- what holds in the first state and after every step holds in every state of the run -/
lemma along_after_iff {P : σ → Prop} (l : List α) : ∀ s, P s →
    (Along step (fun s a => P (step s a)) s l ↔ ∀ l', l' <+: l → P (exec step s l')) := by
  induction l with
  | nil =>
    intro s hs
    refine ⟨fun _ l' hl' => ?_, fun _ => trivial⟩
    rw [prefix_nil.1 hl']
    exact hs
  | cons a l ih =>
    intro s hs
    constructor
    · rintro ⟨ha, hrest⟩ l' hl'
      cases l' with
      | nil => exact hs
      | cons b l' =>
        obtain ⟨rfl, htail⟩ := cons_prefix_cons.1 hl'
        exact (ih _ ha).1 hrest l' htail
    · intro h
      have ha : P (step s a) := h [a] ⟨l, rfl⟩
      exact ⟨ha, (ih _ ha).2 fun l' hl' => h (a :: l') (cons_prefix_cons.2 ⟨rfl, hl'⟩)⟩

/-- facts that every step keeps, once they hold, are those that hold from then on in the run -/
lemma along_stable_iff {T : ι → σ → Prop} (l : List α) : ∀ s,
    (Along step (fun s a => ∀ i, T i s → T i (step s a)) s l ↔
      ∀ l1 l2, l1 <+: l2 → l2 <+: l → ∀ i, T i (exec step s l1) → T i (exec step s l2)) := by
  induction l with
  | nil =>
    intro s
    refine ⟨fun _ l1 l2 h1 h2 i hi => ?_, fun _ => trivial⟩
    rw [prefix_nil.1 h2] at h1 ⊢
    rwa [prefix_nil.1 h1] at hi
  | cons a l ih =>
    intro s
    constructor
    · rintro ⟨ha, hrest⟩ l1 l2 h1 h2 i hi
      cases l2 with
      | nil => rwa [prefix_nil.1 h1] at hi
      | cons b l2 =>
        obtain ⟨rfl, htail⟩ := cons_prefix_cons.1 h2
        cases l1 with
        | nil => exact (ih _).1 hrest [] l2 ⟨l2, rfl⟩ htail i (ha i hi)
        | cons b' l1 =>
          obtain ⟨rfl, htail'⟩ := cons_prefix_cons.1 h1
          exact (ih _).1 hrest l1 l2 htail' htail i hi
    · intro h
      refine ⟨fun i hi => h [] [a] ⟨[a], rfl⟩ ⟨l, rfl⟩ i hi, (ih _).2 fun l1 l2 h1 h2 i hi => ?_⟩
      exact h (a :: l1) (a :: l2) (cons_prefix_cons.2 ⟨rfl, h1⟩)
        (cons_prefix_cons.2 ⟨rfl, h2⟩) i hi

def history (step : σ → α → σ) (o : σ → Option β) (s : σ) (l : List α) : List β :=
  (l.scanl step s).filterMap o

/-- an observation that never goes away: its values form a chain when each step links them -/
theorem isChain_history {o : σ → Option β} (S : β → β → Prop)
    (hstay : ∀ s a x, o s = some x → ∃ y, o (step s a) = some y) (l : List α) :
    ∀ s, (history step o s l).IsChain S ↔
      Along step (fun s a => ∀ x y, o s = some x → o (step s a) = some y → S x y) s l := by
  induction l with
  | nil =>
    intro s
    cases h : o s with
    | none | some x => simp [history, h, Along]
  | cons a l ih =>
    intro s
    rw [Along, ← ih (step s a)]
    cases h : o s with
    | none => simp [history, h]
    | some x =>
      obtain ⟨y, hy⟩ := hstay s a x h
      have e : history step o (step s a) l = y :: (history step o (step s a) l).tail := by
        cases l <;> simp [history, hy]
      have e' : history step o s (a :: l) = x :: history step o (step s a) l := by
        simp [history, h]
      rw [e', e, isChain_cons_cons]
      simp [hy]

end

/-! ## systems with outputs -/

section
variable {σ α β : Type*} (f : σ → α → σ × β)

def after (s : σ) (l : List α) : σ := exec (fun s a => (f s a).1) s l

def trace (f : σ → α → σ × β) : σ → List α → List β
  | _, [] => []
  | s, a :: l => (f s a).2 :: trace f (f s a).1 l

lemma after_snoc (s : σ) (l : List α) (a : α) : after f s (l ++ [a]) = (f (after f s l) a).1 := by
  rw [after, exec_append]
  rfl

lemma trace_append (l l' : List α) (s : σ) :
    trace f s (l ++ l') = trace f s l ++ trace f (after f s l) l' := by
  induction l generalizing s with
  | nil => rfl
  | cons a l ih =>
    rw [cons_append, trace, trace, ih, cons_append]
    rfl

/-- every output satisfies `Q` when a step from an `I`-state gives such an output and keeps `I` -/
theorem trace_inv {f : σ → α → σ × β} {I : σ → Prop} {Q : β → Prop}
    (hstep : ∀ s a, I s → I (f s a).1 ∧ Q (f s a).2) (l : List α) :
    ∀ s, I s → ∀ o ∈ trace f s l, Q o := by
  induction l with
  | nil => intro s _ o ho; cases ho
  | cons a l ih =>
    intro s hs o ho
    rcases mem_cons.1 ho with rfl | ho
    · exact (hstep s a hs).2
    · exact ih _ (hstep s a hs).1 o ho

end

/-! ## step relations -/

section
variable {σ : Type*} {R : σ → σ → Prop} {s t u : σ} {P I : σ → Prop}

section
variable (R : σ → σ → Prop)

def Reach : σ → σ → Prop := ReflTransGen R

def Stuck (s : σ) : Prop := ∀ t, ¬ R s t

/-- every run from `s` is finite -/
def Halts (s : σ) : Prop := Acc (fun a b => R b a) s

end

lemma Reach.refl (s : σ) : Reach R s s := ReflTransGen.refl

lemma Reach.head (h : R s t) (hr : Reach R t u) : Reach R s u :=
  ReflTransGen.head h hr

lemma Reach.tail (hr : Reach R s t) (h : R t u) : Reach R s u :=
  ReflTransGen.tail hr h

lemma Reach.trans (h1 : Reach R s t) (h2 : Reach R t u) : Reach R s u :=
  ReflTransGen.trans h1 h2

theorem Reach.inv (hstep : ∀ s t, I s → R s t → I t) (hr : Reach R s t) (hs : I s) : I t := by
  induction hr with
  | refl => exact hs
  | tail _ h ih => exact hstep _ _ ih h

theorem reach_of_play {ε : Type*} {play : σ → List ε → Option σ} (hnil : ∀ s, play s [] = some s)
    (hcons : ∀ s e es t, play s (e :: es) = some t → ∃ u, R s u ∧ play u es = some t)
    (es : List ε) : ∀ {s t : σ}, play s es = some t → Reach R s t := by
  induction es with
  | nil =>
    intro s t h
    rw [hnil] at h
    cases h
    exact Reach.refl _
  | cons e es ih =>
    intro s t h
    obtain ⟨u, hu, hrest⟩ := hcons s e es t h
    exact Reach.head hu (ih hrest)

/-- a natural number that every step from an `I`-state makes smaller bounds the runs -/
theorem Halts.of_measure (μ : σ → ℕ) (hI : ∀ s t, I s → R s t → I t)
    (hμ : ∀ s t, I s → R s t → μ t < μ s) : ∀ s, I s → Halts R s := by
  intro s
  induction hn : μ s using Nat.strong_induction_on generalizing s with
  | _ n ih =>
    intro hs
    refine Acc.intro s fun t ht => ?_
    exact ih (μ t) (hn ▸ hμ s t hs ht) t rfl (hI s t hs ht)

/-- a rank that no step raises bounds the runs, when the steps that leave it are steps of a finite run
of another system -/
theorem Halts.of_rank {ρ : Type*} {S : ρ → ρ → Prop} {I : σ → ℕ → ρ → Prop}
    (hhalts : ∀ s n r, I s n r → Halts S r)
    (hstep : ∀ s n r t, I s n r → R s t → ∃ m r', I t m r' ∧ (m < n ∨ m = n ∧ S r r')) :
    ∀ n s r, I s n r → Halts R s := by
  intro n
  induction n using Nat.strong_induction_on with
  | _ n ih =>
    intro s r hs
    induction hhalts s n r hs generalizing s with
    | intro r _ ihr =>
      refine Acc.intro s fun t ht => ?_
      obtain ⟨m, r', ht', hlt | ⟨rfl, hr⟩⟩ := hstep s n r t hs ht
      · exact ih m hlt t r' ht'
      · exact ihr r' hr t ht'

theorem Halts.exists_stuck (h : Halts R s) : ∃ t, Reach R s t ∧ Stuck R t := by
  induction h with
  | intro s _ ih =>
    by_cases hs : Stuck R s
    · exact ⟨s, Reach.refl s, hs⟩
    · obtain ⟨t, ht⟩ := not_forall_not.1 hs
      obtain ⟨u, hu, hstuck⟩ := ih t ht
      exact ⟨u, Reach.head ht hu, hstuck⟩

def Ends (R : σ → σ → Prop) (P : σ → Prop) (s : σ) : Prop :=
  Halts R s ∧ ∀ t, Reach R s t → Stuck R t → P t

theorem Ends.of_stuck (hs : Stuck R s) (hP : P s) : Ends R P s := by
  refine ⟨Acc.intro s fun t ht => absurd ht (hs t), fun t hr _ => ?_⟩
  rcases ReflTransGen.cases_head hr with rfl | ⟨u, hu, -⟩
  · exact hP
  · exact absurd hu (hs u)

/-- the run goes on, and ends well whichever step is taken -/
theorem Ends.of_step (ht : R s t) (h : ∀ u, R s u → Ends R P u) : Ends R P s := by
  refine ⟨Acc.intro s fun u hu => (h u hu).1, fun u hr hstuck => ?_⟩
  rcases ReflTransGen.cases_head hr with rfl | ⟨v, hv, hrest⟩
  · exact absurd ht (hstuck t)
  · exact (h v hv).2 u hrest hstuck

lemma Ends.mono {Q : σ → Prop} (h : Ends R P s) (hPQ : ∀ t, P t → Q t) : Ends R Q s :=
  ⟨h.1, fun t hr hstuck => hPQ t (h.2 t hr hstuck)⟩

end

end Run
