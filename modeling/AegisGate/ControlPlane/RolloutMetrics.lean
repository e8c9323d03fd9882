import Mathlib.Data.List.TakeWhile
import AegisGate.ControlPlane.RolloutController

/-!
# The metrics of a version

`FeedbackBusMetricsProvider` keeps the last router outcomes of each version in the order they come in, and
counts those of a window of time from the back.  It stops at the first sample before the window, so it
covers the window exactly when no sample inside it came in before one outside
(`forVersionAt_covers_iff`).
-/

namespace AegisGate.ControlPlane

open List

structure Sample where
  tsMs : ℤ
  latencyMs : Float
  isError : Bool

structure FeedbackBusMetricsProvider where
  maxSamples : ℕ := 50000
  versions : String → Option (List Sample) := fun _ => none

namespace FeedbackBusMetricsProvider

variable (p : FeedbackBusMetricsProvider) (versionId : String)

def samples : List Sample := (p.versions versionId).getD []

def recordRouterOutcome (s : Sample) : FeedbackBusMetricsProvider :=
  let samples := p.samples versionId
  let samples := if p.maxSamples ≤ samples.length then samples.tail else samples
  { p with versions := Function.update p.versions versionId (some (samples ++ [s])) }

/-- the samples that the loop reads before it stops -/
def scan (cutoffMs : ℤ) : List Sample := (p.samples versionId).reverse.takeWhile (cutoffMs ≤ ·.tsMs)

variable (window nowMs : ℤ)

def forVersionAt : VersionMetrics :=
  let scanned := p.scan versionId (nowMs - window * 1000)
  let n := scanned.length
  if n = 0 then {}
  else
    let latencies := (scanned.map (·.latencyMs)).mergeSort (· ≤ ·)
    let idx := (Float.ofNat n * 0.99).toUInt64.toNat
    { sampleCount := n
      errorRate := .ofNat (scanned.countP (·.isError)) / .ofNat n
      p99LatencyMs := latencies.getD (if n ≤ idx then n - 1 else idx) 0 }

/-- the result counts the kept samples of the window, and its error rate is of those among them that
failed -/
def Covers : Prop :=
  let recent := (p.samples versionId).filter (nowMs - window * 1000 ≤ ·.tsMs)
  (p.forVersionAt versionId window nowMs).sampleCount = recent.length ∧
    (p.scan versionId (nowMs - window * 1000)).countP (·.isError) = recent.countP (·.isError) ∧
    (p.forVersionAt versionId window nowMs).errorRate =
      if recent.length = 0 then 0 else .ofNat (recent.countP (·.isError)) / .ofNat recent.length

lemma takeWhile_eq_filter_iff {α : Type*} (q : α → Bool) (l : List α) :
    l.takeWhile q = l.filter q ↔ l.Pairwise (fun a b => q b → q a) := by
  induction l with
  | nil => simp
  | cons a l ih =>
    cases ha : q a with
    | true => simp [ha, ih]
    | false =>
      rw [takeWhile_cons_of_neg (by simp [ha]), filter_cons_of_neg (by simp [ha]), pairwise_cons, ha,
        eq_comm, filter_eq_nil_iff]
      refine ⟨fun h => ⟨fun b hb hq => absurd hq (h b hb), ?_⟩, fun h b hb hq => by cases h.1 b hb hq⟩
      exact pairwise_of_forall_mem_list fun _ _ b hb hq => absurd hq (h b hb)

/-- the window is covered exactly when, in the order of the ring, no sample inside it comes before one
outside -/
theorem forVersionAt_covers_iff : p.Covers versionId window nowMs ↔
    (p.samples versionId).Pairwise fun a b =>
      nowMs - window * 1000 ≤ a.tsMs → nowMs - window * 1000 ≤ b.tsMs := by
  set q : Sample → Bool := fun s => nowMs - window * 1000 ≤ s.tsMs
  have hcount : (p.forVersionAt versionId window nowMs).sampleCount =
      ((p.samples versionId).reverse.takeWhile q).length := by
    unfold forVersionAt
    dsimp only
    split
    · rename_i h
      exact congrArg Nat.cast h.symm
    · rfl
  have horder := takeWhile_eq_filter_iff q (p.samples versionId).reverse
  simp only [pairwise_reverse, filter_reverse, q, decide_eq_true_eq] at horder
  rw [Covers, hcount, forVersionAt, scan, ← horder]
  constructor
  · rintro ⟨hlen, -⟩
    have hsub := (takeWhile_sublist (l := (p.samples versionId).reverse) q).filter q
    rw [filter_eq_self.2 (fun _ => mem_takeWhile_imp), filter_reverse] at hsub
    exact hsub.eq_of_length ((Int.ofNat_inj.1 hlen).trans length_reverse.symm)
  · intro h
    rw [h, length_reverse, countP_reverse]
    refine ⟨rfl, rfl, ?_⟩
    dsimp only
    split <;> rfl

/-- a late report hides the sample before it -/
theorem late_sample_hides :
    let p := recordRouterOutcome {} "v" ⟨1000, 1, true⟩
    ¬ (p.recordRouterOutcome "v" ⟨0, 1, false⟩).Covers "v" 1 1500 := by
  intro p h
  exact absurd h.1 (by decide)

end FeedbackBusMetricsProvider

end AegisGate.ControlPlane
