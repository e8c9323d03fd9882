import AegisGate.Lib.Run

/-!
# Infinite runs and what they lead to

`states step s e` are the states of the infinite run from `s` with the inputs `e`.  `LeadsTo P Q`
says that a time with `P` is followed, now or later, by one with `Q`.

* `LeadsTo.trans`  two such steps in a row;
* `LeadsTo.rank`  `P` comes to `Q` when it keeps coming back with a smaller rank;
* `leadsTo_of_fair`  … in particular when no step raises the rank and a kind of step that is
  taken again and again lowers it;
* `states_inv`  invariants hold at every time;
* `exists_settled`  a number that never grows comes to rest.
-/

namespace Run

/-! ## infinite runs -/

section
variable {σ α : Type*} {s : σ} {step : σ → α → σ} {e : ℕ → α}

def states (step : σ → α → σ) (s : σ) (e : ℕ → α) : ℕ → σ
  | 0 => s
  | n + 1 => step (states step s e n) (e n)

theorem states_inv {I : σ → Prop} (h0 : I s)
    (hstep : ∀ n, I (states step s e n) → I (step (states step s e n) (e n))) :
    ∀ n, I (states step s e n) := by
  intro n
  induction n with
  | zero => exact h0
  | succ n ih => exact hstep n ih

lemma states_fixed {t : σ} {N : ℕ} (hN : states step s e N = t)
    (hfixed : ∀ n, N ≤ n → step t (e n) = t) : ∀ n, N ≤ n → states step s e n = t := by
  intro n hn
  induction n, hn using Nat.le_induction with
  | base => exact hN
  | succ n hn ih =>
    show step (states step s e n) (e n) = t
    rw [ih]
    exact hfixed n hn

end

/-! ## leads to -/

section
variable {P Q R : ℕ → Prop}

/-- a time with `P` is followed by one with `Q`, now or later -/
def LeadsTo (P Q : ℕ → Prop) : Prop := ∀ n, P n → ∃ m, n ≤ m ∧ Q m

theorem LeadsTo.trans (h1 : LeadsTo P Q) (h2 : LeadsTo Q R) : LeadsTo P R := by
  intro n hn
  obtain ⟨m, hm, hQ⟩ := h1 n hn
  obtain ⟨k, hk, hR⟩ := h2 m hQ
  exact ⟨k, hm.trans hk, hR⟩

theorem LeadsTo.rank (μ : ℕ → ℕ) (h : ∀ n, P n → ∃ m, n ≤ m ∧ (Q m ∨ P m ∧ μ m < μ n)) :
    LeadsTo P Q := by
  intro n
  induction hk : μ n using Nat.strong_induction_on generalizing n with
  | _ k ih =>
    intro hn
    obtain ⟨m, hm, hQ | ⟨hP, hlt⟩⟩ := h n hn
    · exact ⟨m, hm, hQ⟩
    · obtain ⟨m', hm', hQ⟩ := ih (μ m) (hk ▸ hlt) m rfl hP
      exact ⟨m', hm.trans hm', hQ⟩

/-- what one step keeps, unless `Q` comes, is kept until `Q` comes -/
lemma keeps_until {I : ℕ → Prop} {N : ℕ} (hstep : ∀ n, N ≤ n → I n → Q (n + 1) ∨ I (n + 1))
    (hN : I N) : ∀ m, N ≤ m → (∃ k, N ≤ k ∧ Q k) ∨ I m := by
  intro m hm
  induction m, hm using Nat.le_induction with
  | base => exact .inr hN
  | succ m hm ih =>
    rcases ih with hQ | hI
    · exact .inl hQ
    · rcases hstep m hm hI with hQ | hI
      · exact .inl ⟨m + 1, by omega, hQ⟩
      · exact .inr hI

/-- fairness rule: no step raises the rank, and helpful steps, which keep coming, lower it -/
theorem leadsTo_of_fair (μ : ℕ → ℕ) (A : ℕ → Prop) (hfair : ∀ n, ∃ m, n ≤ m ∧ A m)
    (hstep : ∀ n, P n → Q (n + 1) ∨ P (n + 1) ∧ μ (n + 1) ≤ μ n ∧ (A n → μ (n + 1) < μ n)) :
    LeadsTo P Q := by
  refine LeadsTo.rank μ fun n hn => ?_
  obtain ⟨m, hm, hA⟩ := hfair n
  have hkept := keeps_until (Q := Q) (I := fun k => P k ∧ μ k ≤ μ n) (N := n)
    (fun k _ hk => (hstep k hk.1).imp_right fun h => ⟨h.1, h.2.1.trans hk.2⟩) ⟨hn, le_refl _⟩ m hm
  rcases hkept with ⟨k, hk, hQ⟩ | ⟨hP, hle⟩
  · exact ⟨k, hk, .inl hQ⟩
  · exact ⟨m + 1, by omega, (hstep m hP).imp_right fun h => ⟨h.1, (h.2.2 hA).trans_le hle⟩⟩

theorem exists_settled {f : ℕ → ℕ} {N : ℕ} (h : ∀ n, N ≤ n → f (n + 1) ≤ f n) :
    ∃ M, N ≤ M ∧ ∀ n, M ≤ n → f (n + 1) = f n := by
  induction hk : f N using Nat.strong_induction_on generalizing N with
  | _ k ih =>
    by_cases hrest : ∀ n, N ≤ n → f (n + 1) = f n
    · exact ⟨N, le_refl _, hrest⟩
    · push Not at hrest
      obtain ⟨n, hn, hne⟩ := hrest
      have hle : ∀ m, N ≤ m → f m ≤ f N := by
        intro m hm
        induction m, hm using Nat.le_induction with
        | base => exact le_refl _
        | succ m hm ihm => exact (h m hm).trans ihm
      have hlt : f (n + 1) < k := by
        have h1 := h n hn
        have h2 := hle n hn
        omega
      obtain ⟨M, hM, hrest⟩ := ih (f (n + 1)) hlt (fun m hm => h m (by omega)) rfl
      exact ⟨M, by omega, hrest⟩

end

end Run
