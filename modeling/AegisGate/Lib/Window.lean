import Mathlib.Algebra.Order.Field.Rat
import Mathlib.Algebra.Order.BigOperators.Group.List
import Mathlib.Tactic.Linarith
import Mathlib.Tactic.Ring
import AegisGate.Lib.Run

/-!
# Costs inside a time window

Events with a time and a cost, over an arbitrary type.

* `cost a b l`  the cost of the events of `l` whose time lies in `[a, b]`;
* `WithinRate M r l`  a burst `M` and a rate `r` bound the cost of every window;
* `admitted s l`  the events that a system lets through;
* `Metered`  the system spends from a bucket of size `M` that is refilled at rate `r`.

`Metered` speaks of lines `t ↦ x + r * t`: a state is under the line `x` when no more than that can
be spent up to time `t`.  The events may come with times in any order.  A metered system stays within
its rate (`Metered.withinRate`).
-/

namespace Window

open List

section
variable {α : Type*} (time weight : α → ℚ)

def cost (a b : ℚ) (l : List α) : ℚ :=
  ((l.filter (fun x => decide (a ≤ time x ∧ time x ≤ b))).map weight).sum

def WithinRate (M r : ℚ) (l : List α) : Prop :=
  ∀ a b, a ≤ b → cost time weight a b l ≤ M + r * (b - a)

@[simp] lemma cost_nil (a b : ℚ) : cost time weight a b ([] : List α) = 0 := rfl

lemma cost_cons_in {a b : ℚ} {x : α} (l : List α) (h : a ≤ time x ∧ time x ≤ b) :
    cost time weight a b (x :: l) = weight x + cost time weight a b l := by
  unfold cost
  rw [filter_cons_of_pos (by simpa using h), map_cons, sum_cons]

lemma cost_replicate (t : ℚ) (x : α) (h : time x = t) (n : Nat) :
    cost time weight t t (replicate n x) = n * weight x := by
  induction n with
  | zero => simp
  | succ n ih =>
    rw [replicate_succ, cost_cons_in time weight _ ⟨h.ge, h.le⟩, ih]
    push_cast
    ring

end

/-! ## systems that spend from a bucket -/

section
variable {σ α : Type*} (step : σ → α → σ) (admits : σ → α → Bool) (time weight : α → ℚ)

def admitted : σ → List α → List α
  | _, [] => []
  | s, a :: l => if admits s a then a :: admitted (step s a) l else admitted (step s a) l

/-- what is admitted does not depend on how the states are represented -/
lemma admitted_map {τ : Type*} {step' : τ → α → τ} {admits' : τ → α → Bool} (f : σ → τ)
    (hstep : ∀ s a, f (step s a) = step' (f s) a) (hadmits : ∀ s a, admits s a = admits' (f s) a)
    (l : List α) : ∀ s, admitted step admits s l = admitted step' admits' (f s) l := by
  induction l with
  | nil => intro s; rfl
  | cons a l ih =>
    intro s
    unfold admitted
    rw [hadmits, ih, hstep]

/-- the lines above a state of the system, for the states in `I` and the events that meet `P`: an event
is free and leaves the lines as they are, or it finds `t` tokens and takes its weight if they suffice -/
structure Metered (M r : ℚ) (I : σ → Prop) (P : σ → α → Prop) (Under : σ → ℚ → Prop) : Prop where
  inv : ∀ s a, I s → P s a → I (step s a)
  draw : ∀ s a, I s → P s a → (admits s a → weight a ≤ 0) ∧ (∀ x, Under s x → Under (step s a) x) ∨
      ∃ t, t ≤ M ∧ 0 ≤ weight a ∧ (admits s a ↔ weight a ≤ t) ∧
        (∀ x, Under s x → t - r * time a ≤ x) ∧
        ∀ y, Under (step s a) y ↔ (if admits s a then t - weight a else t) - r * time a ≤ y

variable {step admits time weight}

lemma cost_cons_out {a b : ℚ} {x : α} (l : List α) (h : ¬ (a ≤ time x ∧ time x ≤ b)) :
    cost time weight a b (x :: l) = cost time weight a b l := by
  unfold cost
  rw [filter_cons_of_neg (by simpa using h)]

lemma cost_cons_le {x : α} (h : weight x ≤ 0) (a b : ℚ) (l : List α) :
    cost time weight a b (x :: l) ≤ cost time weight a b l := by
  by_cases hx : a ≤ time x ∧ time x ≤ b
  · rw [cost_cons_in time weight l hx]
    linarith
  · rw [cost_cons_out l hx]

section
variable {M r : ℚ} {I : σ → Prop} {P : σ → α → Prop} {Under : σ → ℚ → Prop}
variable (h : Metered step admits time weight M r I P Under) (hr : 0 ≤ r)
include h hr

/-- what is spent from now on in a window stays under a line that the state is under -/
lemma Metered.cost_le_line (a b : ℚ) (l : List α) : ∀ s x, I s → Run.Along step P s l → Under s x →
    0 ≤ x + r * b → cost time weight a b (admitted step admits s l) ≤ x + r * b := by
  induction l with
  | nil => intro s x _ _ _ hx; exact hx
  | cons e l ih =>
    intro s x hs hP hu hx
    have ih := fun y => ih (step s e) y (h.inv s e hs hP.1) hP.2
    unfold admitted
    rcases h.draw s e hs hP.1 with ⟨hfree, hkeep⟩ | ⟨t, -, hpos, hadm, hline, hnext⟩
    · have hrest := ih x (hkeep x hu) hx
      split
      · next hyes => exact (cost_cons_le (hfree hyes) a b _).trans hrest
      · exact hrest
    · have ht := hline x hu
      by_cases hyes : admits s e
      · have hw := hadm.1 hyes
        rw [if_pos hyes] at hnext ⊢
        by_cases hin : a ≤ time e ∧ time e ≤ b
        · have htime : r * time e ≤ r * b := mul_le_mul_of_nonneg_left hin.2 hr
          have hrest := ih (x - weight e) ((hnext _).2 (by linarith)) (by linarith)
          rw [cost_cons_in time weight _ hin]
          linarith
        · rw [cost_cons_out _ hin]
          exact ih x ((hnext x).2 (by linarith)) hx
      · rw [if_neg hyes] at hnext ⊢
        exact ih x ((hnext x).2 ht) hx

/-- rate rule: the first cost in a window is paid from a bucket that holds at most `M` -/
theorem Metered.withinRate (hM : 0 ≤ M) (l : List α) : ∀ s, I s → Run.Along step P s l →
    WithinRate time weight M r (admitted step admits s l) := by
  induction l with
  | nil =>
    intro s _ _ a b hab
    have hlen : 0 ≤ r * (b - a) := mul_nonneg hr (by linarith)
    show (0 : ℚ) ≤ _
    linarith
  | cons e l ih =>
    intro s hs hP a b hab
    have hs' := h.inv s e hs hP.1
    have hrest := ih _ hs' hP.2 a b hab
    unfold admitted
    by_cases hyes : admits s e
    · rw [if_pos hyes]
      rcases h.draw s e hs hP.1 with ⟨hfree, -⟩ | ⟨t, ht, -, hadm, -, hnext⟩
      · exact (cost_cons_le (hfree hyes) a b _).trans hrest
      · have hw := hadm.1 hyes
        rw [if_pos hyes] at hnext
        by_cases hin : a ≤ time e ∧ time e ≤ b
        · have hbegin : r * a ≤ r * time e := mul_le_mul_of_nonneg_left hin.1 hr
          have hend : r * time e ≤ r * b := mul_le_mul_of_nonneg_left hin.2 hr
          have hline := h.cost_le_line hr a b l _ (M - r * time e - weight e) hs' hP.2
            ((hnext _).2 (by linarith)) (by linarith)
          rw [cost_cons_in time weight _ hin]
          linarith
        · rw [cost_cons_out _ hin]
          exact hrest
    · rw [if_neg hyes]
      exact hrest

end

end

end Window
