import AegisGate.Autonomy.Rollback

/-!
# The rollback after a failed apply

When an applier reports a failure, `AutonomyApprovalWorkflow::apply` rolls the same proposal back, and
the rollback does not know that nothing was applied.

* `Spared`  the rollback finds nothing to change;
* `failed_apply_spares_iff`  then, and only then, the target is as it was before the call.

Cost and workflow proposals are always spared.  A guard model that is live is retired by a second
`register_shadow` of its version, and a live bandit is put into shadow mode by an unknown action
(`failed_apply_retires_live`).
-/

namespace AegisGate.Autonomy

section
variable {ω : Type} {w : Wiring ω} {p : ApprovalProposal} {t : Targets ω} {k : ApplierKind}

def Spared (w : Wiring ω) (p : ApprovalProposal) (t : Targets ω) : ApplierKind → Prop
  | .cost => True
  | .recovery => isAutonomyEnabled w.env →
    (extractAction p = .ok "override_quality_tier" → w.hasRouter → NoOverride p t) ∧
      (extractAction p = .ok "apply_budget_cap" → w.hasBudgetGuard →
        ∀ cap, capField p "previous_per_tenant_24h_usd" = some cap → cap = t.perTenant24hUsd)
  | .bandit => isAutonomyEnabled w.env → w.hasBanditRouter →
    ∀ v, BanditPayload.extract p = .ok (.ok v) → t.banditMode = .shadow
  | .guardModel => isAutonomyEnabled w.env → w.hasRegistry →
    ∀ v, GuardPayload.extract p = .ok (.ok v) →
      ∀ rec, t.registry (Registry.key v.modelId v.version) = some rec → rec.status ≠ .live
  | .workflow => True

lemma withPayload_unchanged_iff {α τ : Type} {x : Except Json.TypeError (Except String α)} {t : τ}
    {k : α → Outcome τ} : (withPayload x t k).2 = t ↔ ∀ v, x = .ok (.ok v) → (k v).2 = t := by
  match x with
  | .error e | .ok (.error err) => exact ⟨nofun, fun _ => rfl⟩
  | .ok (.ok v) =>
    refine ⟨fun h v' hv' => ?_, fun h => h v rfl⟩
    cases hv'
    exact h

lemma clear_unchanged_iff {tenant : String} (h : tenantField p = some tenant) :
    t.clearQualityTierOverride tenant = t ↔ NoOverride p t := by
  unfold Targets.clearQualityTierOverride
  rw [if_neg (tenantField_ne h)]
  constructor
  · intro he tenant' ht'
    rw [h] at ht'
    cases ht'
    exact (Function.update_eq_self_iff.1 (congrArg Targets.tierOverrides he)).symm
  · intro hn
    rw [Function.update_eq_self_iff.2 (hn tenant h).symm]

lemma cost_spared {r : ApplyResult} (h : ((costApplier w).apply p false t).1 = .ok r)
    (hf : r.success = false) : ((costApplier w).rollback p t).2 = t := by
  refine withPayload_unchanged_iff.2 fun v hv => ?_
  cases hw : w.hasRouter with
  | false => rfl
  | true =>
    simp only [costApplier, withPayload, hv, hw, Bool.not_true, Bool.false_eq_true, if_false] at h
    cases h
    cases hf

lemma tier_spared_iff :
    (rollbackOverrideQualityTier w p t).2 = t ↔ (w.hasRouter → NoOverride p t) := by
  cases hw : w.hasRouter with
  | false =>
    refine ⟨fun _ => nofun, fun _ => ?_⟩
    refine withPayload_unchanged_iff.2 fun v _ => ?_
    rw [hw]
    rfl
  | true =>
    rw [rollbackOverrideQualityTier_targets hw]
    cases htenant : tenantField p with
    | none =>
      refine ⟨fun _ _ tenant ht => ?_, fun _ => rfl⟩
      rw [htenant] at ht
      cases ht
    | some tenant =>
      rw [clear_unchanged_iff htenant]
      exact ⟨fun hn _ => hn, fun hn => hn rfl⟩

lemma cap_spared_iff :
    (rollbackApplyBudgetCap w p t).2 = t ↔ (w.hasBudgetGuard →
      ∀ cap, capField p "previous_per_tenant_24h_usd" = some cap → cap = t.perTenant24hUsd) := by
  cases hw : w.hasBudgetGuard with
  | false =>
    refine ⟨fun _ => nofun, fun _ => ?_⟩
    refine withPayload_unchanged_iff.2 fun v _ => ?_
    rw [hw]
    rfl
  | true =>
    rw [rollbackApplyBudgetCap_targets hw]
    cases hcap : capField p "previous_per_tenant_24h_usd" with
    | none => exact ⟨nofun, fun _ => rfl⟩
    | some cap =>
      refine ⟨fun he _ cap' hc => ?_, fun h => ?_⟩
      · cases hc
        exact congrArg Targets.perTenant24hUsd he
      · rw [h rfl cap rfl]
        rfl

lemma recovery_spared_iff : ((recoveryApplier w).rollback p t).2 = t ↔
    (extractAction p = .ok "override_quality_tier" → w.hasRouter → NoOverride p t) ∧
      (extractAction p = .ok "apply_budget_cap" → w.hasBudgetGuard →
        ∀ cap, capField p "previous_per_tenant_24h_usd" = some cap → cap = t.perTenant24hUsd) := by
  simp only [recoveryApplier]
  cases ha : extractAction p with
  | error e => exact ⟨fun _ => ⟨(by intro h; cases h), (by intro h; cases h)⟩, fun _ => rfl⟩
  | ok action =>
    simp only [Except.ok.injEq]
    by_cases h1 : action = "override_quality_tier"
    · subst h1
      rw [if_pos rfl, tier_spared_iff]
      exact ⟨fun hn => ⟨fun _ => hn, fun hc => absurd hc (by decide)⟩, fun hn => hn.1 rfl⟩
    by_cases h2 : action = "apply_budget_cap"
    · subst h2
      rw [if_neg h1, if_pos rfl, cap_spared_iff]
      exact ⟨fun hn => ⟨fun hc => absurd hc h1, fun _ => hn⟩, fun hn => hn.2 rfl⟩
    · rw [if_neg h1, if_neg h2]
      refine ⟨fun _ => ⟨fun hc => absurd hc h1, fun hc => absurd hc h2⟩, fun _ => ?_⟩
      split <;> rfl

lemma bandit_spared_iff : ((banditApplier w).rollback p t).2 = t ↔ (w.hasBanditRouter →
    ∀ v, BanditPayload.extract p = .ok (.ok v) → t.banditMode = .shadow) := by
  refine withPayload_unchanged_iff.trans ?_
  cases hw : w.hasBanditRouter with
  | false => exact ⟨fun _ => nofun, fun _ v _ => rfl⟩
  | true =>
    simp only [Bool.not_true, Bool.false_eq_true, if_false]
    refine ⟨fun h _ v hv => ?_, fun h v hv => ?_⟩
    · exact (congrArg Targets.banditMode (h v hv)).symm
    · unfold Targets.revertToShadow
      rw [← h trivial v hv]

lemma revert_unchanged_iff (reg : Registry) (modelId version : String) :
    (reg.revert modelId version).2 = reg ↔
      ∀ rec, reg (Registry.key modelId version) = some rec → rec.status ≠ .live := by
  unfold Registry.revert
  cases hrec : reg (Registry.key modelId version) with
  | none => exact ⟨nofun, fun _ => rfl⟩
  | some rec =>
    by_cases hl : rec.status = .live
    · refine ⟨fun he => ?_, fun h => absurd hl (h rec rfl)⟩
      simp only [hl, ne_eq, not_true_eq_false, if_false] at he
      have hsame := Function.update_eq_self_iff.1 he
      rw [hrec] at hsame
      have := congrArg ModelRegistryRecord.status (Option.some.inj hsame)
      rw [hl] at this
      cases this
    · simp only [ne_eq, hl, not_false_eq_true, if_true]
      refine ⟨fun _ rec' hr => ?_, fun _ => trivial⟩
      cases hr
      exact hl

lemma guardModel_spared_iff :
    ((guardModelApplier w).rollback p t).2 = t ↔ (w.hasRegistry →
      ∀ v, GuardPayload.extract p = .ok (.ok v) →
        ∀ rec, t.registry (Registry.key v.modelId v.version) = some rec → rec.status ≠ .live) := by
  refine withPayload_unchanged_iff.trans ?_
  cases hw : w.hasRegistry with
  | false => exact ⟨fun _ => nofun, fun _ v _ => rfl⟩
  | true =>
    simp only [Bool.not_true, Bool.false_eq_true, if_false, forall_const]
    refine forall_congr' fun v => imp_congr_right fun _ => ?_
    rw [← revert_unchanged_iff]
    have hreg : ∀ reg, ({ t with registry := reg } : Targets ω) = t ↔ reg = t.registry :=
      fun reg => ⟨fun he => congrArg Targets.registry he, fun he => by rw [he]⟩
    split <;> exact hreg _

lemma applier_spared_iff {r : ApplyResult} (h : ((w.applier k).apply p false t).1 = .ok r)
    (hf : r.success = false) : ((w.applier k).rollback p t).2 = t ↔ Spared w p t k := by
  cases hon : isAutonomyEnabled w.env with
  | false =>
    simp only [Wiring.applier, StepApplier.guarded, hon, Bool.false_eq_true, if_false, true_iff]
    cases k with
    | cost | workflow => trivial
    | _ => exact fun hc => absurd (hon.symm.trans hc) Bool.false_ne_true
  | true =>
    simp only [Wiring.applier, StepApplier.guarded, hon, if_true] at h ⊢
    cases k with
    | cost => exact ⟨fun _ => trivial, fun _ => cost_spared h hf⟩
    | recovery => exact recovery_spared_iff.trans ⟨fun hn _ => hn, fun hn => hn hon⟩
    | bandit => exact bandit_spared_iff.trans ⟨fun hn _ => hn, fun hn => hn hon⟩
    | guardModel => exact guardModel_spared_iff.trans ⟨fun hn _ => hn, fun hn => hn hon⟩
    | workflow => exact ⟨fun _ => trivial, fun _ => rfl⟩

/-- an approved proposal whose applier fails without effect: the target is as before exactly when
the automatic rollback finds nothing to change -/
theorem failed_apply_spares_iff (d : WorkflowDeps (Targets ω)) (s : Shared (Targets ω))
    (enabled : Bool) (id : String) (hget : s.queue.get id = some p) (hp : Passes d enabled p)
    (ha : d.appliers p.source = some (w.applier k)) (r : ApplyResult)
    (happly : (w.applier k).apply p false s.targets = (.ok r, s.targets)) (hf : r.success = false) :
    ((applyProg d enabled id).run (exec d) s).2.targets = s.targets ↔ Spared w p s.targets k := by
  have hr : ((w.applier k).apply p false s.targets).1 = .ok r := by rw [happly]
  have hrun := run_runApplierProg_failed (s := s) ha hr hf
  rw [run_applyProg_passed hp hget ha, hrun, happly]
  exact applier_spared_iff hr hf

theorem failed_apply_spares_unknown :
    ((applyProg (sampleDeps .recovery) true "p1").run (exec (sampleDeps .recovery))
      (stateWith (approvedWith [("action", .str "reboot")]) plainTargets)).2.targets
        = plainTargets := by
  refine (failed_apply_spares_iff (w := sampleWiring) (k := .recovery) (sampleDeps .recovery)
    (stateWith (approvedWith [("action", .str "reboot")]) plainTargets) true "p1" rfl
    ⟨rfl, rfl, rfl⟩ rfl (.fail "unknown_action" "unrecognised action: reboot") rfl rfl).2
    (fun _ => ⟨fun hc => ?_, fun hc => ?_⟩)
  all_goals exact absurd (Except.ok.inj hc : "reboot" = _) (by decide)

def liveTargets : Targets Unit :=
  { plainTargets with
    banditMode := .live
    registry := fun k => if k = "m::1" then some ⟨"m", "1", "", 1 / 2, .live, 3, "", ""⟩ else none }

def duplicateProposal : ApprovalProposal :=
  approvedWith [("action", .str "register_shadow"), ("model_id", .str "m"), ("version", .str "1")]

def unknownBanditProposal : ApprovalProposal :=
  approvedWith [("action", .str "freeze"), ("strategy", .str "thompson")]

theorem failed_apply_retires_live :
    ((applyProg (sampleDeps .guardModel) true "p1").run (exec (sampleDeps .guardModel))
        (stateWith duplicateProposal liveTargets)).1 = .ok false ∧
      ((sampleWiring.applier .guardModel).apply duplicateProposal false liveTargets).2
        = liveTargets ∧ (liveTargets.registry "m::1").map (·.status) = some .live ∧
      (((applyProg (sampleDeps .guardModel) true "p1").run (exec (sampleDeps .guardModel))
        (stateWith duplicateProposal liveTargets)).2.targets.registry "m::1").map (·.status)
          = some .retired ∧
      ((applyProg (sampleDeps .bandit) true "p1").run (exec (sampleDeps .bandit))
        (stateWith unknownBanditProposal liveTargets)).1 = .ok false ∧
      ((applyProg (sampleDeps .bandit) true "p1").run (exec (sampleDeps .bandit))
        (stateWith unknownBanditProposal liveTargets)).2.targets.banditMode = .shadow :=
  ⟨rfl, rfl, rfl, rfl, rfl, rfl⟩

end

end AegisGate.Autonomy
