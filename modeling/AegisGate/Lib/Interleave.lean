import Mathlib.Data.List.Infix
import AegisGate.Lib.Run

/-!
# One stateful stage, several clients

A stage is a function `f : σ → α → σ × β` from its memory and an input to the next memory and an
output.  Clients with names in `ι` send it inputs in some order.

* `Run.trace f s l`  the outputs of one client's inputs;
* `shared f s l`  the outputs of an interleaving, each under its client's name;
* `own i l`  what belongs to client `i`.

A stage whose memory is a function `mem` of its last input only serves its clients as if each were
alone exactly when the memory it holds at each call is the one that client left
(`forall_own_shared_eq_iff`).
-/

namespace Interleave

open List

section
variable {ι α : Type*} [DecidableEq ι]

def own (i : ι) (l : List (ι × α)) : List α :=
  (l.filter (fun x => decide (x.1 = i))).map Prod.snd

lemma own_nil (i : ι) : own i ([] : List (ι × α)) = [] := rfl

lemma own_append (i : ι) (l l' : List (ι × α)) : own i (l ++ l') = own i l ++ own i l' := by
  simp [own]

lemma own_single_self (i : ι) (a : α) : own i [(i, a)] = [a] := by simp [own]

lemma own_single_ne {i j : ι} (h : j ≠ i) (a : α) : own i [(j, a)] = [] := by simp [own, h]

end

section
variable {ι α β σ : Type*}

def shared (f : σ → α → σ × β) : σ → List (ι × α) → List (ι × β)
  | _, [] => []
  | s, (i, a) :: l => (i, (f s a).2) :: shared f (f s a).1 l

lemma shared_append (f : σ → α → σ × β) (l l' : List (ι × α)) (s : σ) :
    shared f s (l ++ l') = shared f s l ++ shared f (Run.after f s (l.map Prod.snd)) l' := by
  induction l generalizing s with
  | nil => rfl
  | cons x l ih =>
    rw [cons_append, shared, shared, ih, cons_append]
    rfl

end

/-! ## memory of the last input -/

section
variable {ι α β σ : Type*} [DecidableEq ι] (mem : α → σ) (s₀ : σ)

/-- the memory that the last of `l` leaves, `s₀` before any input -/
def lastMem (l : List α) : σ := (l.getLast?.map mem).getD s₀

lemma lastMem_snoc (l : List α) (a : α) : lastMem mem s₀ (l ++ [a]) = mem a := by
  simp [lastMem]

lemma after_eq_lastMem (out : σ → α → β) (l : List α) :
    Run.after (fun s a => (mem a, out s a)) s₀ l = lastMem mem s₀ l := by
  induction l using List.reverseRecOn with
  | nil => rfl
  | append_singleton l a _ => rw [Run.after_snoc, lastMem_snoc]

/-- at each input of `i` the memory is the one `i` itself left -/
def KeepsOwn (i : ι) (l : List (ι × α)) : Prop :=
  ∀ pre a, pre ++ [(i, a)] <+: l → lastMem mem s₀ (pre.map Prod.snd) = lastMem mem s₀ (own i pre)

lemma keepsOwn_nil (i : ι) : KeepsOwn mem s₀ i ([] : List (ι × α)) := by
  intro pre a h
  exact absurd (prefix_nil.1 h) (by simp)

lemma keepsOwn_snoc (i j : ι) (a : α) (l : List (ι × α)) :
    KeepsOwn mem s₀ i (l ++ [(j, a)]) ↔ KeepsOwn mem s₀ i l ∧
        (j = i → lastMem mem s₀ (l.map Prod.snd) = lastMem mem s₀ (own i l)) := by
  constructor
  · intro h
    refine ⟨fun pre b hp => h pre b (hp.trans (prefix_append _ _)), ?_⟩
    rintro rfl
    exact h l a (prefix_refl _)
  · rintro ⟨h, hlast⟩ pre b hp
    rcases prefix_concat_iff.1 hp with e | hp
    · obtain ⟨rfl, e'⟩ := append_inj' e rfl
      simp only [List.cons.injEq, Prod.mk.injEq, and_true] at e'
      exact hlast e'.1.symm
    · exact h pre b hp

/-- one client sees the outputs it would see alone, for every output function of a family that
tells memories apart, exactly when the memory at its calls is its own -/
theorem forall_own_shared_eq_iff {P : Type*} (out : P → σ → α → β)
    (hsep : ∀ s s' a, (∀ p, out p s a = out p s' a) → s = s') (i : ι) (l : List (ι × α)) :
    (∀ p, own i (shared (fun s a => (mem a, out p s a)) s₀ l)
        = Run.trace (fun s a => (mem a, out p s a)) s₀ (own i l)) ↔ KeepsOwn mem s₀ i l := by
  induction l using List.reverseRecOn with
  | nil => simp [own_nil, shared, Run.trace, keepsOwn_nil]
  | append_singleton l x ih =>
    obtain ⟨j, a⟩ := x
    rw [keepsOwn_snoc, ← ih]
    by_cases hj : j = i
    · subst hj
      simp only [shared_append, shared, own_append, own_single_self, Run.trace_append,
        Run.trace, after_eq_lastMem]
      constructor
      · intro h
        refine ⟨fun p => (append_inj' (h p) rfl).1, fun _ => hsep _ _ a fun p => ?_⟩
        exact head_eq_of_cons_eq (append_inj' (h p) rfl).2
      · rintro ⟨h, hm⟩ p
        rw [h p, hm trivial]
    · simp only [shared_append, shared, own_append, own_single_ne hj, append_nil, hj,
        false_implies, and_true]

end

end Interleave
