import AegisGate.Autonomy.Appliers
import AegisGate.Autonomy.ApprovalRace

/-!
# What a rollback does to the targets

A rollback sees the proposal and not the state before `apply`: it clears the override of the tenant,
writes the cap that the payload carries as the previous one, puts the bandit into shadow mode and
retires a live guard model.

* `tenantField`, `capField`  what the payload names;
* `Restored`  the targets are as they were before `apply`;
* `Reversible`  the state before `apply` is the one that the rollback writes.
-/

namespace AegisGate

open Json Proc
namespace Autonomy

section
variable {τ : Type} {d : WorkflowDeps τ} {a : StepApplier τ} {s : Shared τ} {id : String}
  {cur : ApprovalProposal} {enabled : Bool}

/-! ## one operation alone, with appliers that may throw -/

structure Passes (d : WorkflowDeps τ) (enabled : Bool) (cur : ApprovalProposal) : Prop where
  enabled : enabled
  state : cur.state = .approved
  payload : verifyPayloadSha256 d.digest cur

lemma run_applyProg_passed (hp : Passes d enabled cur) (hget : s.queue.get id = some cur)
    (ha : d.appliers cur.source = some a) :
    (applyProg d enabled id).run (exec d) s = (runApplierProg d cur).run (exec d) s := by
  have hst : ¬ cur.state ≠ .approved := not_not.2 hp.state
  unfold applyProg
  rw [hp.enabled]
  simp only [Bool.not_true, Bool.false_eq_true, if_false, run_bind, run_op, exec, hget]
  rw [if_neg hst, hp.payload, ha]
  rfl

lemma audited_false (p : ApprovalProposal) : audited d p false ≠ .ok true := by
  unfold audited
  split
  · cases Workflow.auditDetail p with
    | error e | ok j => exact nofun
  · exact nofun

lemma passes_of_true (h : ((applyProg d enabled id).run (exec d) s).1 = .ok true)
    (hget : s.queue.get id = some cur) : Passes d enabled cur := by
  unfold applyProg at h
  cases enabled with
  | false => cases h
  | true =>
    simp only [Bool.not_true, Bool.false_eq_true, if_false, run_bind, run_op, exec, hget] at h
    by_cases hst : cur.state ≠ .approved
    · rw [if_pos hst] at h
      cases h
    rw [if_neg hst] at h
    cases hv : verifyPayloadSha256 d.digest cur with
    | false =>
      rw [hv] at h
      exact absurd h (audited_false cur)
    | true => exact ⟨rfl, not_not.1 hst, hv⟩

lemma run_runApplierProg_failed (ha : d.appliers cur.source = some a) {r : ApplyResult}
    (hr : (a.apply cur false s.targets).1 = .ok r) (hf : r.success = false) :
    ((runApplierProg d cur).run (exec d) s).2.targets =
      (a.rollback cur (a.apply cur false s.targets).2).2 := by
  unfold runApplierProg
  simp only [run_bind, run_op, exec_apply ha, hr, hf, Bool.false_eq_true, if_false,
    exec_rollback ha]
  cases (a.rollback cur (a.apply cur false s.targets).2).1 with
  | error e | ok r' => rfl

lemma run_runApplierProg_true (ha : d.appliers cur.source = some a)
    (h : ((runApplierProg d cur).run (exec d) s).1 = .ok true) :
    ∃ r, (a.apply cur false s.targets).1 = .ok r ∧ r.success ∧
      ((runApplierProg d cur).run (exec d) s).2.targets = (a.apply cur false s.targets).2 ∧
      ((runApplierProg d cur).run (exec d) s).2.queue.get cur.id =
        some { cur with state := .applied } := by
  unfold runApplierProg at h ⊢
  simp only [run_bind, run_op, exec_apply ha] at h ⊢
  cases hr : (a.apply cur false s.targets).1 with
  | error e =>
    simp only [hr] at h
    cases h
  | ok r =>
    simp only [hr] at h ⊢
    cases hs : r.success with
    | true =>
      refine ⟨r, rfl, hs, ?_⟩
      simp only [hs, if_true, run_moveProg] at h ⊢
      refine ⟨trivial, ?_⟩
      rw [get_update, if_pos]
      refine ⟨?_, rfl⟩
      by_contra hacc
      rw [Bool.not_eq_true] at hacc
      rw [hacc] at h
      cases h
    | false =>
      simp only [hs, Bool.false_eq_true, if_false, run_bind, run_op, exec_rollback ha] at h
      cases hb : (a.rollback cur (a.apply cur false s.targets).2).1 with
      | error e =>
        simp only [hb] at h
        cases h
      | ok r' =>
        simp only [hb] at h
        exact absurd h (audited_false _)

lemma run_rollbackProg (hget : s.queue.get id = some cur) (hst : cur.state = .applied)
    (ha : d.appliers cur.source = some a) :
    ((rollbackProg d true id).run (exec d) s).2.targets = (a.rollback cur s.targets).2 := by
  have hst' : ¬ cur.state ≠ .applied := not_not.2 hst
  unfold rollbackProg
  simp only [Bool.not_true, Bool.false_eq_true, if_false, run_bind, run_op, exec, hget]
  rw [if_neg hst', ha]
  simp only [Option.isNone_some, Bool.false_eq_true, if_false, run_bind, run_op, exec_rollback ha]
  cases (a.rollback cur s.targets).1 with
  | error e | ok r => rfl

end

/-! ## what the payload names -/

section
variable {p : ApprovalProposal} {field : String} {cap : ℚ}

def tenantField (p : ApprovalProposal) : Option String :=
  match p.payload.valueStr "tenant_id" "" with
  | .ok tenant => if tenant = "" then none else some tenant
  | .error _ => none

def capField (p : ApprovalProposal) (field : String) : Option ℚ :=
  match p.payload.valueDouble field (-1) with
  | .ok cap => if cap < 0 then none else some cap
  | .error _ => none

lemma tenantField_of_ok {tenant : String} (h : p.payload.valueStr "tenant_id" "" = .ok tenant)
    (hne : tenant ≠ "") : tenantField p = some tenant := by
  unfold tenantField
  rw [h]
  exact if_neg hne

lemma capField_missing (h : p.payload.contains field = false) : capField p field = none := by
  unfold capField
  cases hj : p.payload with
  | obj l =>
    have hl : l.lookup field = none := by
      rw [hj] at h
      exact Option.isNone_iff_eq_none.1 (by rw [← Option.not_isSome]; exact congrArg not h)
    simp only [valueDouble, hl]
    exact if_pos (by decide)
  | _ => rfl

lemma extract_cost {v : CostPayload} (h : CostPayload.extract p = .ok (.ok v)) :
    tenantField p = some v.tenantId ∧ v.toTier ≠ "" := by
  unfold CostPayload.extract at h
  split at h
  · cases h
  obtain ⟨tenant, htenant, h⟩ := bind_eq_ok h
  obtain ⟨fromTier, -, h⟩ := bind_eq_ok h
  obtain ⟨toTier, -, h⟩ := bind_eq_ok h
  obtain ⟨savings, -, h⟩ := bind_eq_ok h
  obtain ⟨rps, -, h⟩ := bind_eq_ok h
  split_ifs at h with h1 h2 h3
  · cases h
  · cases h
  · cases h
  · cases h
    exact ⟨tenantField_of_ok htenant h1, h3⟩

lemma extract_tier {v : String × String} (h : tierPayload p = .ok (.ok v)) :
    tenantField p = some v.1 ∧ v.2 ≠ "" := by
  unfold tierPayload at h
  split at h
  · cases h
  obtain ⟨tenant, htenant, h⟩ := bind_eq_ok h
  obtain ⟨toTier, -, h⟩ := bind_eq_ok h
  split_ifs at h with hne
  · cases h
  · cases h
    rw [not_or] at hne
    exact ⟨tenantField_of_ok htenant hne.1, hne.2⟩

lemma extract_newCap (h : newCapPayload p = .ok (.ok cap)) :
    capField p "new_per_tenant_24h_usd" = some cap := by
  unfold newCapPayload at h
  split at h
  · cases h
  split at h
  · cases h
  obtain ⟨c, hc, h⟩ := bind_eq_ok h
  split at h
  · cases h
  · next hpos =>
    cases h
    unfold capField
    rw [hc]
    exact if_neg hpos

end

section
variable {ω : Type} {w : Wiring ω} {p : ApprovalProposal} {t : Targets ω} {r : ApplyResult}
  {tenant : String}

lemma rollbackOverrideQualityTier_targets (hw : w.hasRouter) :
    (rollbackOverrideQualityTier w p t).2 = match tenantField p with
      | some tenant => t.clearQualityTierOverride tenant
      | none => t := by
  unfold rollbackOverrideQualityTier tenantPayload tenantField
  rw [hw]
  cases hj : p.payload with
  | obj l =>
    cases hv : (obj l).valueStr "tenant_id" "" with
    | error e => rfl
    | ok tenant =>
      by_cases hne : tenant = ""
      · subst hne
        rfl
      · simp only [isObject, Bool.not_true, Bool.false_eq_true, if_false]
        show (withPayload (if tenant = "" then _ else _) t _).2 = _
        rw [if_neg hne, if_neg hne]
        rfl
  | _ => rfl

lemma rollbackApplyBudgetCap_targets (hw : w.hasBudgetGuard) :
    (rollbackApplyBudgetCap w p t).2 = match capField p "previous_per_tenant_24h_usd" with
      | some cap => t.setPerTenantCap cap
      | none => t := by
  unfold rollbackApplyBudgetCap hasPreviousCap
  cases hobj : p.payload.isObject with
  | false =>
    have hnone : capField p "previous_per_tenant_24h_usd" = none := by
      refine capField_missing ?_
      cases hj : p.payload with
      | obj l =>
        rw [hj] at hobj
        cases hobj
      | _ => rfl
    rw [hnone]
    rfl
  | true =>
    cases hc : p.payload.contains "previous_per_tenant_24h_usd" with
    | false =>
      rw [capField_missing hc]
      rfl
    | true =>
      rw [hw]
      unfold capField
      simp only [Bool.not_true, Bool.false_eq_true, if_false, withPayload, previousCap]
      cases hv : p.payload.valueDouble "previous_per_tenant_24h_usd" (-1) with
      | error e => rfl
      | ok cap =>
        by_cases hneg : cap < 0
        · simp only [bind, Except.bind, if_pos hneg]
          rfl
        · simp only [bind, Except.bind, if_neg hneg]
          rfl

/-! ## the rollback of a proposal that was applied -/

structure Restored (t t' : Targets ω) : Prop where
  tierOverrides : t'.tierOverrides = t.tierOverrides
  perTenant24hUsd : t'.perTenant24hUsd = t.perTenant24hUsd
  banditMode : t'.banditMode = t.banditMode

def NoOverride (p : ApprovalProposal) (t : Targets ω) : Prop :=
  ∀ tenant, tenantField p = some tenant → t.tierOverrides tenant = none

/-- the state before `apply` is what a rollback writes; without a previous cap the new one stays -/
def Reversible (p : ApprovalProposal) (t : Targets ω) : ApplierKind → Prop
  | .cost => NoOverride p t
  | .recovery =>
    (extractAction p = .ok "override_quality_tier" → NoOverride p t) ∧
      (extractAction p = .ok "apply_budget_cap" →
        (capField p "previous_per_tenant_24h_usd").or (capField p "new_per_tenant_24h_usd") =
          some t.perTenant24hUsd)
  | .bandit => t.banditMode = .shadow
  | .guardModel => True
  | .workflow => True

lemma tenantField_ne (h : tenantField p = some tenant) : tenant ≠ "" := by
  unfold tenantField at h
  split at h
  · split at h
    · cases h
    · next hne =>
      cases h
      exact hne
  · cases h

lemma restored_tier_iff {tier : String} (ht : tenantField p = some tenant) (htier : tier ≠ "") :
    Restored t ((t.overrideQualityTier tenant tier).clearQualityTierOverride tenant) ↔
      NoOverride p t := by
  have hne := tenantField_ne ht
  have hw : (t.overrideQualityTier tenant tier).clearQualityTierOverride tenant =
      { t with tierOverrides := Function.update t.tierOverrides tenant none } := by
    unfold Targets.overrideQualityTier Targets.clearQualityTierOverride
    rw [if_neg hne, if_neg (not_or.2 ⟨hne, htier⟩)]
    simp only [Function.update_idem]
  rw [hw]
  constructor
  · intro h tenant' ht'
    rw [ht] at ht'
    cases ht'
    exact (Function.update_eq_self_iff.1 h.tierOverrides).symm
  · intro h
    exact ⟨Function.update_eq_self_iff.2 (h tenant ht).symm, rfl, rfl⟩

lemma withPayload_success {α τ : Type} {x : Except TypeError (Except String α)} {t : τ}
    {k : α → Outcome τ} (h : (withPayload x t k).1 = .ok r) (hs : r.success) :
    ∃ v, x = .ok (.ok v) := by
  match x with
  | .error e => cases h
  | .ok (.error err) =>
    cases h
    cases hs
  | .ok (.ok v) => exact ⟨v, rfl⟩

lemma cost_restored_iff (h : ((costApplier w).apply p false t).1 = .ok r) (hs : r.success) :
    Restored t ((costApplier w).rollback p ((costApplier w).apply p false t).2).2 ↔
      NoOverride p t := by
  obtain ⟨v, hv⟩ := withPayload_success h hs
  obtain ⟨htenant, htier⟩ := extract_cost hv
  cases hw : w.hasRouter with
  | false =>
    simp only [costApplier, withPayload, hv, hw] at h
    cases h
    cases hs
  | true =>
    simp only [costApplier, withPayload, hv, hw, Bool.not_true, Bool.false_eq_true, if_false]
    exact restored_tier_iff htenant htier

lemma tier_restored_iff (h : (handleOverrideQualityTier w p false t).1 = .ok r) (hs : r.success) :
    Restored t (rollbackOverrideQualityTier w p (handleOverrideQualityTier w p false t).2).2 ↔
      NoOverride p t := by
  obtain ⟨v, hv⟩ := withPayload_success h hs
  obtain ⟨htenant, htier⟩ := extract_tier hv
  cases hw : w.hasRouter with
  | false =>
    simp only [handleOverrideQualityTier, withPayload, hv, hw] at h
    cases h
    cases hs
  | true =>
    rw [rollbackOverrideQualityTier_targets hw, htenant]
    simp only [handleOverrideQualityTier, withPayload, hv, hw, Bool.not_true, Bool.false_eq_true,
      if_false]
    exact restored_tier_iff htenant htier

lemma cap_restored_iff (h : (handleApplyBudgetCap w p false t).1 = .ok r) (hs : r.success) :
    Restored t (rollbackApplyBudgetCap w p (handleApplyBudgetCap w p false t).2).2 ↔
      (capField p "previous_per_tenant_24h_usd").or (capField p "new_per_tenant_24h_usd") =
        some t.perTenant24hUsd := by
  obtain ⟨cap, hv⟩ := withPayload_success h hs
  cases hw : w.hasBudgetGuard with
  | false =>
    simp only [handleApplyBudgetCap, withPayload, hv, hw] at h
    cases h
    cases hs
  | true =>
    rw [rollbackApplyBudgetCap_targets hw, extract_newCap hv]
    simp only [handleApplyBudgetCap, withPayload, hv, hw, Bool.not_true, Bool.false_eq_true,
      if_false]
    cases capField p "previous_per_tenant_24h_usd" with
    | none | some prev =>
      exact ⟨fun hr => congrArg some hr.perTenant24hUsd, fun hr => ⟨rfl, Option.some.inj hr, rfl⟩⟩

lemma recovery_restored_iff (h : ((recoveryApplier w).apply p false t).1 = .ok r)
    (hs : r.success) :
    Restored t ((recoveryApplier w).rollback p ((recoveryApplier w).apply p false t).2).2 ↔
      Reversible p t .recovery := by
  unfold Reversible
  simp only [recoveryApplier] at h ⊢
  cases ha : extractAction p with
  | error e =>
    simp only [ha] at h
    cases h
  | ok action =>
    simp only [ha, Except.ok.injEq] at h ⊢
    by_cases h1 : action = "override_quality_tier"
    · subst h1
      simp only [if_true] at h ⊢
      rw [tier_restored_iff h hs]
      exact ⟨fun hn => ⟨fun _ => hn, fun hc => absurd hc (by decide)⟩, fun hn => hn.1 trivial⟩
    by_cases h2 : action = "apply_budget_cap"
    · subst h2
      simp only [if_neg h1, if_true] at h ⊢
      rw [cap_restored_iff h hs]
      exact ⟨fun hn => ⟨fun hc => absurd hc h1, fun _ => hn⟩, fun hn => hn.2 trivial⟩
    · -- advisory actions change nothing, and unknown ones do not succeed
      simp only [if_neg h1, if_neg h2] at h ⊢
      have hsame : ∀ {r' : Except TypeError ApplyResult}, Restored t (r', t).2 :=
        ⟨rfl, rfl, rfl⟩
      refine ⟨fun _ => ⟨fun hc => absurd hc h1, fun hc => absurd hc h2⟩, fun _ => ?_⟩
      split
      · exact hsame
      · exact hsame

lemma bandit_restored_iff (h : ((banditApplier w).apply p false t).1 = .ok r) (hs : r.success) :
    Restored t ((banditApplier w).rollback p ((banditApplier w).apply p false t).2).2 ↔
      t.banditMode = .shadow := by
  obtain ⟨v, hv⟩ := withPayload_success h hs
  cases hw : w.hasBanditRouter with
  | false =>
    simp only [banditApplier, withPayload, hv, hw] at h
    cases h
    cases hs
  | true =>
    -- the action changes the mode and the canary only
    have hframe : ∀ ok t', banditAction w v t = some (ok, t') →
        t'.tierOverrides = t.tierOverrides ∧ t'.perTenant24hUsd = t.perTenant24hUsd := by
      intro ok t' ht'
      unfold banditAction Targets.transitionToLive at ht'
      split_ifs at ht' <;> cases ht' <;> exact ⟨rfl, rfl⟩
    simp only [banditApplier, withPayload, hv, hw, Bool.not_true, Bool.false_eq_true,
      if_false] at h ⊢
    cases hb : banditAction w v t with
    | none =>
      simp only [hb] at h
      cases h
      cases hs
    | some c =>
      obtain ⟨ok, t'⟩ := c
      obtain ⟨ho, hc⟩ := hframe ok t' hb
      have hgoal : Restored t t'.revertToShadow ↔ t.banditMode = .shadow :=
        ⟨fun hr => hr.banditMode.symm, fun hm => ⟨ho, hc, hm.symm⟩⟩
      cases ok with
      | true | false => exact hgoal

end

section
variable {ω : Type} {w : Wiring ω} {p : ApprovalProposal} {t : Targets ω} {k : ApplierKind}

lemma guarded_success {τ : Type} {env : Env} {a : StepApplier τ} {t : τ} {r : ApplyResult}
    (h : ((a.guarded env).apply p false t).1 = .ok r) (hs : r.success) : isAutonomyEnabled env := by
  by_contra hoff
  simp only [StepApplier.guarded, hoff] at h
  cases h
  cases hs

lemma rollback_state (p : ApprovalProposal) (st : ApprovalState) (t : Targets ω) :
    (w.applier k).rollback { p with state := st } t = (w.applier k).rollback p t := by
  cases k <;> rfl

/-- an applied cost, recovery or bandit proposal, rolled back at once: the targets are as before
exactly when they were what the rollback writes -/
theorem rollback_restores_iff (hk : k = .cost ∨ k = .recovery ∨ k = .bandit)
    (d : WorkflowDeps (Targets ω)) (s : Shared (Targets ω)) (enabled : Bool)
    (hget : s.queue.get p.id = some p) (ha : d.appliers p.source = some (w.applier k))
    (happly : ((applyProg d enabled p.id).run (exec d) s).1 = .ok true) :
    Restored s.targets ((rollbackProg d enabled p.id).run (exec d)
      ((applyProg d enabled p.id).run (exec d) s).2).2.targets ↔ Reversible p s.targets k := by
  have hpass := passes_of_true happly hget
  rw [run_applyProg_passed hpass hget ha] at happly ⊢
  obtain ⟨r, hr, hs, htargets, hqueue⟩ := run_runApplierProg_true ha happly
  have hback := run_rollbackProg (d := d) hqueue rfl ha
  rw [hpass.enabled, hback, rollback_state, htargets]
  have hon := guarded_success hr hs
  simp only [Wiring.applier, StepApplier.guarded, hon, if_true] at hr ⊢
  rcases hk with rfl | rfl | rfl
  · exact cost_restored_iff hr hs
  · exact recovery_restored_iff hr hs
  · exact bandit_restored_iff hr hs

def sampleWiring : Wiring Unit where
  env := none
  nowMs := 7
  dump := fun _ => "\x7b\x7d"
  hasRouter := true
  hasBudgetGuard := true
  hasBanditRouter := true
  hasRegistry := true
  hasEngine := true
  runHash := fun _ _ => none
  resume := fun _ t => (.ok {}, t)

def sampleDeps (k : ApplierKind) : WorkflowDeps (Targets Unit) where
  digest := Workflow.sampleDigest
  hasAudit := false
  appliers _ := some (sampleWiring.applier k)

def approvedWith (payload : List (String × Json)) : ApprovalProposal where
  id := "p1"
  payload := .obj payload
  state := .approved
  payloadSha256 := computePayloadSha256 Workflow.sampleDigest (.obj payload)

def plainTargets : Targets Unit where
  tierOverrides := fun _ => none
  perTenant24hUsd := 100
  banditMode := .shadow
  canaryPct := 1 / 20
  registry := fun _ => none
  runs := ()

def stateWith (p : ApprovalProposal) (t : Targets Unit) : Shared (Targets Unit) :=
  { queue := ⟨none, AList.insert p.id p ∅⟩, targets := t }

def tierProposal : ApprovalProposal :=
  approvedWith [("action", .str "override_quality_tier"), ("tenant_id", .str "acme"),
    ("from_quality_tier", .str "premium"), ("to_quality_tier", .str "standard")]

theorem rollback_restores_unset :
    Restored plainTargets ((rollbackProg (sampleDeps .cost) true "p1").run (exec (sampleDeps .cost))
      ((applyProg (sampleDeps .cost) true "p1").run (exec (sampleDeps .cost))
        (stateWith tierProposal plainTargets)).2).2.targets :=
  (rollback_restores_iff (w := sampleWiring) (p := tierProposal) (.inl rfl) (sampleDeps .cost)
    (stateWith tierProposal plainTargets) true rfl rfl rfl).2 fun _ _ => rfl

def overriddenTargets : Targets Unit := { plainTargets with tierOverrides := fun _ => some "economy" }

def capProposal : ApprovalProposal :=
  approvedWith [("action", .str "apply_budget_cap"), ("new_per_tenant_24h_usd", .int 50)]

/-- what `apply` and then `rollback` of `p1` return, and the targets after them -/
def applyThenRollback (k : ApplierKind) (s : Shared (Targets Unit)) :
    Except TypeError Bool × Except TypeError Bool × Targets Unit :=
  let applied := (applyProg (sampleDeps k) true "p1").run (exec (sampleDeps k)) s
  let rolledBack := (rollbackProg (sampleDeps k) true "p1").run (exec (sampleDeps k)) applied.2
  (applied.1, rolledBack.1, rolledBack.2.targets)

theorem rollback_loses_prior_state :
    (applyThenRollback .cost (stateWith tierProposal overriddenTargets)).1 = .ok true ∧
      (applyThenRollback .cost (stateWith tierProposal overriddenTargets)).2.1 = .ok true ∧
      (applyThenRollback .cost (stateWith tierProposal overriddenTargets)).2.2.tierOverrides "acme"
        = none ∧ overriddenTargets.tierOverrides "acme" = some "economy" ∧
      (applyThenRollback .recovery (stateWith capProposal plainTargets)).2.1 = .ok true ∧
      (applyThenRollback .recovery (stateWith capProposal plainTargets)).2.2.perTenant24hUsd = 50 ∧
      plainTargets.perTenant24hUsd = 100 :=
  ⟨rfl, rfl, rfl, rfl, rfl, rfl, rfl⟩

end

end Autonomy
end AegisGate
