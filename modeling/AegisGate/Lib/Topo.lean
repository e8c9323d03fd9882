import Mathlib.Data.Fintype.Card
import Mathlib.Data.List.Count
import Mathlib.Data.List.Dedup
import Mathlib.Data.List.Nodup
import Mathlib.Data.List.Perm.Subperm
import Mathlib.Data.Set.Finite.Basic
import Mathlib.Logic.Function.Basic
import Mathlib.Tactic.Common

/-!
# Scheduling by in-degrees

A finite graph is given by its prerequisites `deps x`, with multiplicity, and its successors
`succ c`.  A scheduler keeps an in-degree for each vertex; when `c` is done it lowers the in-degree
of each successor, and those that reach zero become ready.

* `release f ss`  lower the in-degrees of `ss` in turn; the vertices that reach zero;
* `remaining deps V x`  the prerequisites of `x` that are not in `V`;
* `Ordered deps V`  `V` lists vertices after their prerequisites (the last one first);
* `Frontier deps U V f q`  the state of a scheduler over the vertices `U`: `V` is done, `q` is ready
  or in work, `f` holds the in-degrees;
* `kahn succ fuel f q`  Kahn's loop: the number of vertices it visits.

`Frontier.release` is what one vertex done does; `kahn_final`, by induction on the loop, that nothing
is ready at its end.
-/

namespace Topo

open List Function Relation

variable {α : Type*} [DecidableEq α]

/-! ## lowering in-degrees -/

section
variable (f : α → Int) (ss : List α) (x : α)

def release : (α → Int) → List α → (α → Int) × List α
  | f, [] => (f, [])
  | f, s :: ss =>
    let r := release (update f s (f s - 1)) ss
    (r.1, if f s - 1 = 0 then s :: r.2 else r.2)

lemma release_fst : (release f ss).1 x = f x - ss.count x := by
  induction ss generalizing f with
  | nil => simp [release]
  | cons s ss ih =>
    rw [release, ih]
    by_cases hx : x = s
    · subst hx
      rw [update_self, count_cons_self]
      omega
    · rw [update_of_ne hx, count_cons_of_ne (Ne.symm hx)]

lemma count_release : (release f ss).2.count x = if 0 < f x ∧ f x ≤ ss.count x then 1 else 0 := by
  induction ss generalizing f with
  | nil =>
    have hno : ¬ (0 < f x ∧ f x ≤ 0) := by omega
    simp [release, hno]
  | cons s ss ih =>
    have e : (release f (s :: ss)).2
        = if f s - 1 = 0 then s :: (release (update f s (f s - 1)) ss).2
          else (release (update f s (f s - 1)) ss).2 := rfl
    rw [e]
    by_cases hx : x = s
    · subst hx
      have h := ih (update f x (f x - 1))
      rw [update_self] at h
      rw [count_cons_self]
      by_cases hz : f x - 1 = 0
      · rw [if_pos hz, count_cons_self, h, if_neg (by omega), if_pos (by omega)]
      · rw [if_neg hz, h]
        congr 1
        apply propext
        omega
    · have h := ih (update f s (f s - 1))
      rw [update_of_ne hx] at h
      rw [count_cons_of_ne (Ne.symm hx), ← h]
      split
      · rw [count_cons_of_ne (Ne.symm hx)]
      · rfl

lemma nodup_release : (release f ss).2.Nodup := by
  rw [nodup_iff_count_le_one]
  intro x
  rw [count_release]
  split <;> omega

lemma mem_release : x ∈ (release f ss).2 ↔ 0 < f x ∧ f x ≤ ss.count x := by
  rw [← count_pos_iff, count_release]
  split
  · next h => simp [h]
  · next h => simp [h]

lemma release_perm {U : List α} (hU : U.Nodup) (f : α → Int) {ss : List α}
    (hss : ∀ s ∈ ss, s ∈ U) : (U.filter (0 < f ·)).Perm
      (U.filter (0 < (release f ss).1 ·) ++ (release f ss).2) := by
  have hdisj : ∀ x ∈ U.filter (0 < (release f ss).1 ·), ∀ y ∈ (release f ss).2, x ≠ y := by
    intro x hx y hy hxy
    subst hxy
    have h1 : 0 < (release f ss).1 x := by simpa using (mem_filter.1 hx).2
    have h2 := ((mem_release f ss x).1 hy).2
    rw [release_fst] at h1
    omega
  refine (perm_ext_iff_of_nodup (hU.filter _)
    (nodup_append.2 ⟨hU.filter _, nodup_release f ss, hdisj⟩)).2 fun x => ?_
  simp only [mem_filter, mem_append, mem_release, release_fst, decide_eq_true_eq]
  constructor
  · rintro ⟨hxU, hx⟩
    by_cases hle : f x ≤ ss.count x
    · exact .inr ⟨hx, hle⟩
    · exact .inl ⟨hxU, by omega⟩
  · rintro (⟨hxU, hx⟩ | ⟨hx, hle⟩)
    · exact ⟨hxU, by omega⟩
    · exact ⟨hss x (count_pos_iff.1 (by omega)), hx⟩

end

/-! ## prerequisites -/

def remaining (deps : α → List α) (V : List α) (x : α) : Nat :=
  (deps x).countP (fun d => decide (d ∉ V))

def Ordered (deps : α → List α) : List α → Prop
  | [] => True
  | v :: V => (∀ d ∈ deps v, d ∈ V) ∧ v ∉ V ∧ Ordered deps V

section
variable {deps succ : α → List α} {U V q : List α} {f : α → Int} {c : α}

lemma remaining_eq_zero {x : α} : remaining deps V x = 0 ↔ ∀ d ∈ deps x, d ∈ V := by
  simp [remaining, countP_eq_zero]

lemma remaining_cons (hc : c ∉ V) (x : α) :
    remaining deps (c :: V) x + (deps x).count c = remaining deps V x := by
  unfold remaining
  induction deps x with
  | nil => rfl
  | cons d ds ih =>
    rw [countP_cons, countP_cons, count_cons, ← ih]
    by_cases hd : d = c
    · subst hd
      simp [hc]
      omega
    · simp [hd]
      omega

omit [DecidableEq α] in
lemma Ordered.nodup : ∀ {V : List α}, Ordered deps V → V.Nodup
  | [], _ => nodup_nil
  | _ :: _, h => nodup_cons.2 ⟨h.2.1, nodup h.2.2⟩

open Ordered

omit [DecidableEq α] in
lemma Ordered.closed : ∀ {V : List α}, Ordered deps V → ∀ x ∈ V, ∀ d ∈ deps x, d ∈ V
  | v :: V, h, x, hx, d, hd => by
    rcases mem_cons.1 hx with rfl | hx
    · exact mem_cons_of_mem x (h.1 d hd)
    · exact mem_cons_of_mem v (closed h.2.2 x hx d hd)

omit [DecidableEq α] in
lemma Ordered.irrefl : ∀ {V : List α}, Ordered deps V → ∀ x ∈ V, x ∉ deps x
  | v :: V, h, x, hx => by
    intro hmem
    rcases mem_cons.1 hx with rfl | hx
    · exact h.2.1 (h.1 x hmem)
    · exact irrefl h.2.2 x hx hmem

omit [DecidableEq α] in
lemma Ordered.filter {deps' : α → List α} (p : α → Bool) : ∀ {V : List α}, Ordered deps V →
    (∀ x, p x → ∀ d ∈ deps' x, d ∈ deps x ∧ p d) → Ordered deps' (V.filter p)
  | [], _, _ => trivial
  | v :: V, h, hdeps => by
    have hV := filter p h.2.2 hdeps
    by_cases hv : p v
    · rw [filter_cons_of_pos hv]
      refine ⟨fun d hd => ?_, fun hmem => h.2.1 (mem_filter.1 hmem).1, hV⟩
      obtain ⟨hd, hp⟩ := hdeps v hv d hd
      exact mem_filter.2 ⟨h.1 d hd, hp⟩
    · rw [filter_cons_of_neg hv]
      exact hV

lemma Ordered.subset {A : List α} : ∀ {V : List α}, Ordered deps V →
    (∀ x ∈ V, x ∈ A ∨ 0 < remaining deps A x) → ∀ x ∈ V, x ∈ A
  | v :: V, h, hA, x, hx => by
    have hV : ∀ y ∈ V, y ∈ A :=
      subset h.2.2 fun y hy => hA y (mem_cons_of_mem v hy)
    rcases mem_cons.1 hx with rfl | hx
    · rcases hA x mem_cons_self with hx | hx
      · exact hx
      · rw [remaining_eq_zero.2 fun d hd => hV d (h.1 d hd)] at hx
        omega
    · exact hV x hx

/-! ## one vertex done -/

structure Frontier (deps : α → List α) (U V : List α) (f : α → Int) (q : List α) : Prop where
  degree : ∀ x, f x = remaining deps V x
  ordered : Ordered deps V
  nodup : q.Nodup
  fresh : ∀ x ∈ q, x ∉ V
  ready : ∀ x ∈ q, remaining deps V x = 0
  mem : ∀ x, x ∈ q ∨ x ∈ V → x ∈ U
  cover : ∀ x ∈ U, x ∈ V ∨ x ∈ q ∨ 0 < remaining deps V x

lemma Frontier.perm {q' : List α} (h : Frontier deps U V f q) (hq : q.Perm q') :
    Frontier deps U V f q' where
  degree := h.degree
  ordered := h.ordered
  nodup := hq.nodup_iff.1 h.nodup
  fresh x hx := h.fresh x (hq.mem_iff.2 hx)
  ready x hx := h.ready x (hq.mem_iff.2 hx)
  mem x hx := h.mem x (hx.imp_left hq.mem_iff.2)
  cover x hx := (h.cover x hx).imp_right (Or.imp_left hq.mem_iff.1)

lemma Frontier.start (hf : ∀ x, f x = remaining deps [] x)
    (hU : U.Nodup) : Frontier deps U [] f (U.filter (f · = 0)) where
  degree := hf
  ordered := trivial
  nodup := hU.filter _
  fresh _ _ := not_mem_nil
  ready x hx := by
    have hz : f x = 0 := by simpa using (mem_filter.1 hx).2
    rw [hf] at hz
    omega
  mem x hx := by
    rcases hx with hx | hx
    · exact mem_of_mem_filter hx
    · cases hx
  cover x hx := by
    have hd := hf x
    by_cases hz : f x = 0
    · exact .inr (.inl (mem_filter.2 ⟨hx, by simpa using hz⟩))
    · exact .inr (.inr (by omega))

lemma Frontier.mem_release (hs : ∀ c x, (succ c).count x = (deps x).count c)
    (h : Frontier deps U V f (c :: q)) (x : α) :
    x ∈ (release f (succ c)).2 ↔ 0 < remaining deps V x ∧ remaining deps (c :: V) x = 0 := by
  have hc : remaining deps (c :: V) x + (deps x).count c = remaining deps V x :=
    remaining_cons (h.fresh c mem_cons_self) x
  have hd := h.degree x
  rw [Topo.mem_release, hs c x]
  omega

theorem Frontier.release (hs : ∀ c x, (succ c).count x = (deps x).count c)
    (hU : ∀ c, ∀ x ∈ succ c, x ∈ U) (h : Frontier deps U V f (c :: q)) :
    Frontier deps U (c :: V) (release f (succ c)).1 (q ++ (release f (succ c)).2) := by
  have hcV : c ∉ V := h.fresh c mem_cons_self
  have hc0 : remaining deps V c = 0 := h.ready c mem_cons_self
  have hcq := (nodup_cons.1 h.nodup)
  have hrel : ∀ x, remaining deps (c :: V) x + (deps x).count c = remaining deps V x :=
    remaining_cons hcV
  refine ⟨?_, ?_, ?_, ?_, ?_, ?_, ?_⟩
  · intro x
    have h1 := h.degree x
    have h2 := hrel x
    rw [release_fst, hs c x]
    omega
  · exact ⟨remaining_eq_zero.1 hc0, hcV, h.ordered⟩
  · refine nodup_append.2 ⟨hcq.2, nodup_release f (succ c), ?_⟩
    intro x hx y hy hxy
    subst hxy
    have h1 := h.ready x (mem_cons_of_mem c hx)
    have h2 := (h.mem_release hs x).1 hy
    omega
  · intro x hx hmem
    rcases mem_append.1 hx with hxq | hxr
    · rcases mem_cons.1 hmem with rfl | hmem
      · exact hcq.1 hxq
      · exact h.fresh x (mem_cons_of_mem c hxq) hmem
    · have h1 := ((h.mem_release hs x).1 hxr).1
      rcases mem_cons.1 hmem with rfl | hmem
      · omega
      · rw [remaining_eq_zero.2 (h.ordered.closed x hmem)] at h1
        omega
  · intro x hx
    rcases mem_append.1 hx with hx | hx
    · have h1 := h.ready x (mem_cons_of_mem c hx)
      have h2 := hrel x
      omega
    · exact ((h.mem_release hs x).1 hx).2
  · intro x hx
    rcases hx with hx | hx
    · rcases mem_append.1 hx with hx | hx
      · exact h.mem x (.inl (mem_cons_of_mem c hx))
      · have hpos := (Topo.mem_release f (succ c) x).1 hx
        exact hU c x (count_pos_iff.1 (by omega))
    · rcases mem_cons.1 hx with rfl | hx
      · exact h.mem x (.inl mem_cons_self)
      · exact h.mem x (.inr hx)
  · intro x hx
    rcases h.cover x hx with hxV | hxq | hpos
    · exact .inl (mem_cons_of_mem c hxV)
    · rcases mem_cons.1 hxq with rfl | hxq
      · exact .inl mem_cons_self
      · exact .inr (.inl (mem_append_left _ hxq))
    · by_cases hz : remaining deps (c :: V) x = 0
      · exact .inr (.inl (mem_append_right _ ((h.mem_release hs x).2 ⟨hpos, hz⟩)))
      · exact .inr (.inr (by omega))

/-! ## Kahn's loop -/

def kahn (succ : α → List α) : Nat → (α → Int) → List α → Nat
  | 0, _, _ => 0
  | _ + 1, _, [] => 0
  | fuel + 1, f, c :: q =>
    kahn succ fuel (release f (succ c)).1 (q ++ (release f (succ c)).2) + 1

/-- the in-degrees when the loop ends -/
def kahnDegrees (succ : α → List α) : Nat → (α → Int) → List α → α → Int
  | 0, f, _ => f
  | _ + 1, f, [] => f
  | fuel + 1, f, c :: q => kahnDegrees succ fuel (release f (succ c)).1 (q ++ (release f (succ c)).2)

lemma Frontier.length_le (h : Frontier deps U V f q) : V.length ≤ U.length :=
  (subperm_of_subset h.ordered.nodup fun x hx => h.mem x (.inr hx)).length_le

/-- with a round for each vertex the loop comes to its end: nothing is ready -/
theorem kahn_final (hs : ∀ c x, (succ c).count x = (deps x).count c)
    (hU : ∀ c, ∀ x ∈ succ c, x ∈ U) (fuel : Nat) :
    ∀ {V f q}, Frontier deps U V f q → U.length ≤ V.length + fuel →
      ∃ W, Frontier deps U W (kahnDegrees succ fuel f q) [] ∧
        W.length = V.length + kahn succ fuel f q := by
  induction fuel with
  | zero =>
    intro V f q h hlen
    cases q with
    | nil => exact ⟨V, h, rfl⟩
    | cons c q =>
      -- the vertices done and `c` are more than there are
      have hnd : (c :: V).Nodup :=
        nodup_cons.2 ⟨h.fresh c mem_cons_self, h.ordered.nodup⟩
      have hsub : (c :: V) ⊆ U := by
        intro x hx
        rcases mem_cons.1 hx with rfl | hx
        · exact h.mem x (.inl mem_cons_self)
        · exact h.mem x (.inr hx)
      have hle := (subperm_of_subset hnd hsub).length_le
      rw [length_cons] at hle
      omega
  | succ fuel ih =>
    intro V f q h hlen
    cases q with
    | nil => exact ⟨V, h, rfl⟩
    | cons c q =>
      obtain ⟨W, hW, hcount⟩ := ih (h.release hs hU) (by rw [length_cons]; omega)
      refine ⟨W, hW, ?_⟩
      rw [hcount, kahn, length_cons]
      omega

section
variable {W : List α} (h : Frontier deps U V f [])
include h

/-- what is left over when nothing is ready can never be done -/
lemma Frontier.subset (hW : Ordered deps W) (hmem : ∀ x ∈ W, x ∈ U) : ∀ x ∈ W, x ∈ V := by
  refine hW.subset fun x hx => ?_
  rcases h.cover x (hmem x hx) with hx | hx | hx
  · exact .inl hx
  · cases hx
  · exact .inr hx

lemma Frontier.stuck {x : α} (hx : 0 < f x) (hW : Ordered deps W) (hmem : ∀ y ∈ W, y ∈ U) :
    x ∉ W := by
  intro hxW
  have hdegree := h.degree x
  rw [remaining_eq_zero.2 (h.ordered.closed x (h.subset hW hmem x hxW))] at hdegree
  omega

/-- all vertices are done if they can be ordered -/
lemma Frontier.complete (hnodup : U.Nodup) (hW : Ordered deps W) (hall : ∀ x, x ∈ W ↔ x ∈ U) :
    V.length = U.length := by
  have hsub : U ⊆ V := fun x hx => h.subset hW (fun y => (hall y).1) x ((hall x).2 hx)
  exact h.length_le.antisymm (subperm_of_subset hnodup hsub).length_le

lemma Frontier.perm_of_length (hlen : U.length ≤ V.length) : V.Perm U :=
  (subperm_of_subset h.ordered.nodup fun x hx => h.mem x (.inr hx)).perm_of_length_le hlen

/-- or if they are prerequisites of each other without a cycle -/
lemma Frontier.of_acyclic (hdeps : ∀ x ∈ U, ∀ d ∈ deps x, d ∈ U)
    (hacyclic : ∀ x, ¬ TransGen (fun d y => d ∈ deps y) x x) : ∀ x ∈ U, x ∈ V := by
  let before (a b : {x // x ∈ U}) : Prop := TransGen (fun d y => d ∈ deps y) a.1 b.1
  have : IsTrans _ before := ⟨fun _ _ _ => TransGen.trans⟩
  have : Std.Irrefl before := ⟨fun a => hacyclic a.1⟩
  have : Finite {x // x ∈ U} := U.finite_toSet.to_subtype
  have hwf : WellFounded before := Finite.wellFounded_of_trans_of_irrefl before
  intro x hx
  refine hwf.induction (C := fun a => a.1 ∈ V) ⟨x, hx⟩ fun a ih => ?_
  rcases h.cover a.1 a.2 with hV | hq | hleft
  · exact hV
  · cases hq
  · rw [remaining_eq_zero.2 fun d hd => ih ⟨d, hdeps a.1 a.2 d hd⟩ (.single hd)] at hleft
    omega

end

omit [DecidableEq α] in
lemma Ordered.acyclic : ∀ {V : List α}, Ordered deps V → ∀ x ∈ V,
    ¬ TransGen (fun d y => d ∈ deps y) x x
  | v :: V, h, x, hx => by
    intro hcycle
    rcases mem_cons.1 hx with rfl | hx
    · -- the prerequisites of the last vertex come before it, with all of theirs
      obtain ⟨d, hreach, hd⟩ := TransGen.tail'_iff.1 hcycle
      have hxV : x ∈ V :=
        hreach.head_induction_on (h.1 d hd) fun hstep _ hmem => h.2.2.closed _ hmem _ hstep
      exact h.2.1 hxV
    · exact acyclic h.2.2 x hx hcycle

end

end Topo
