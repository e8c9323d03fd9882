import AegisGate.ControlPlane.ConfigService

/-!
# The lifecycle of config versions

Requests run one after the other, each on its own, from an empty store.

* `Pointed s`  the active id of the store and the active status name the same version;
* `Lifecycle calls s`  that, and a version that is approved, active or superseded has a reviewer
  other than its submitter, recorded by an `approve` of `calls`;
* `NoDuplicateLive s`  no two live versions have the same content hash.

The first two hold in every run.  The last is meant by the check in `submit`, but that check reads only
the newest 500 live versions, and a rollback brings a superseded version back without any check:
`KeepsContent` is what the two must not do.
-/

namespace AegisGate.ControlPlane

open MemoryPersistentStore MemoryPersistentStore Table

section
variable {d : Deps} {s : MemoryPersistentStore} {calls : List Request} {versionId : String}
  {r target : ConfigVersionRecord}

@[simp] lemma putVersion_find (s : MemoryPersistentStore) (r : ConfigVersionRecord) (k : String) :
    (s.putVersion r).configVersions.find k =
      if r.versionId = k then some r else s.configVersions.find k :=
  find_put _ _ _

/-! ## one active version, and it was reviewed -/

/-- the statuses a version has only after an approval -/
def approvedOnce (st : ConfigStatus) : Prop := st = .approved ∨ st = .active ∨ st = .superseded

/-- the verdict on the version was given by one of the requests, not by the submitter -/
def Reviewed (calls : List Request) (id : String) (r : ConfigVersionRecord) : Prop :=
  r.reviewer ≠ r.submitter ∧ Request.approve id r.reviewer r.reviewerComment r.reviewedAt ∈ calls

structure Pointed (s : MemoryPersistentStore) : Prop where
  named : s.configVersions.find "" = none
  active : ∀ id r, s.configVersions.find id = some r → r.status = .active →
    s.activeConfigVersionId = id
  pointer : s.activeConfigVersionId ≠ "" →
    ∃ r, s.configVersions.find s.activeConfigVersionId = some r ∧ r.status = .active

structure Lifecycle (calls : List Request) (s : MemoryPersistentStore) : Prop extends Pointed s where
  reviewed : ∀ id r, s.configVersions.find id = some r → approvedOnce r.status → Reviewed calls id r

lemma Pointed.empty (initialized : Bool) : Pointed { initialized } where
  named := rfl
  active := nofun
  pointer := fun h => absurd rfl h

section
variable (h : Pointed s)
include h

lemma Pointed.ne_empty {id : String} (hfind : s.configVersions.find id = some r) : id ≠ "" := by
  rintro rfl
  rw [h.named] at hfind
  cases hfind

lemma Pointed.putVersion (hid : r.versionId ≠ "")
    (hold : ∀ r', s.configVersions.find r.versionId = some r' → r'.status ≠ .active)
    (hnew : r.status ≠ .active) : Pointed (s.putVersion r) where
  named := by rw [putVersion_find, if_neg hid]; exact h.named
  active := by
    intro id r' hr' hst
    rw [putVersion_find] at hr'
    split at hr'
    · cases hr'
      exact absurd hst hnew
    · exact h.active id r' hr' hst
  pointer := by
    intro hne
    obtain ⟨r', hr', hst⟩ := h.pointer hne
    refine ⟨r', ?_, hst⟩
    rw [putVersion_find, if_neg]
    · exact hr'
    · intro e
      exact hold r' (by rw [e]; exact hr') hst

lemma Pointed.verdict {existing : ConfigVersionRecord}
    (hfind : s.configVersions.find versionId = some existing) (hold : existing.status ≠ .active)
    {target : ConfigStatus} (hnew : target ≠ .active) (reviewer comment : String) (now : ℤ) :
    Pointed (s.putVersion (reviewed target reviewer comment now existing)) := by
  have hkey : existing.versionId = versionId := key_of_find hfind
  refine h.putVersion ?_ ?_ ?_
  · rw [reviewed_versionId, hkey]
    exact h.ne_empty hfind
  · intro r' hr'
    rw [reviewed_versionId, hkey, hfind] at hr'
    cases hr'
    exact hold
  · rw [reviewed_status]
    exact hnew

lemma Pointed.switchTo (hfind : s.configVersions.find versionId = some target)
    (activator : String) (ms : ℤ) : Pointed (s.switchTo versionId activator ms target) := by
  have hsplit := find_switchTo hfind activator ms
  refine ⟨?_, ?_, ?_⟩
  · rw [hsplit, if_neg (Ne.symm (h.ne_empty hfind)), if_neg fun hc => hc.2 rfl]
    exact h.named
  · intro id r hr hact
    rw [hsplit] at hr
    split at hr
    · rename_i e
      exact e.symm
    · split at hr
      · obtain ⟨prev, -, rfl⟩ := Option.map_eq_some_iff.1 hr
        cases hact
      · rename_i hid hother
        exact absurd ⟨(h.active id r hr hact).symm, h.ne_empty hr⟩ hother
  · intro _
    refine ⟨activated activator ms target, ?_, rfl⟩
    show (s.switchTo versionId activator ms target).configVersions.find versionId = _
    rw [hsplit, if_pos rfl]

lemma Pointed.activateConfig (versionId activator : String) (ms : ℤ) :
    Pointed (s.activateConfig versionId activator ms).2 := by
  rcases activateConfig_cases versionId activator ms s with e | ⟨target, hfind, -, e⟩
  · rw [e]
    exact h
  · rw [e]
    exact h.switchTo hfind activator ms

lemma Pointed.write {req : Request} {s' : MemoryPersistentStore}
    (hw : Write d s req s') : Pointed s' := by
  cases hw with
  | submit hacc =>
    refine h.putVersion hacc.named (fun r' hr' => ?_) ?_
    · have e := hacc.unused.symm.trans hr'
      cases e
    · simp [submitted]
  | approve hfind _ hst => exact h.verdict hfind (by simp [hst]) (by simp) _ _ _
  | reject hfind hst =>
    refine h.verdict hfind ?_ (by simp) _ _ _
    rcases hst with hst | hst <;> simp [hst]
  | activate hfind _ | rollback hfind _ => exact h.switchTo hfind _ _

lemma Pointed.step (req : Request) : Pointed (atomically d s req) := by
  rcases atomically_cases d s req with e | hw
  · rw [e]
    exact h
  · exact h.write hw

end

lemma Lifecycle.empty (initialized : Bool) : Lifecycle [] { initialized } where
  toPointed := Pointed.empty initialized
  reviewed := nofun

section
variable (h : Lifecycle calls s)
include h

lemma Lifecycle.mono {calls' : List Request} (hsub : ∀ c ∈ calls, c ∈ calls') :
    Lifecycle calls' s where
  toPointed := h.toPointed
  reviewed := fun id r hr hst => ⟨(h.reviewed id r hr hst).1, hsub _ (h.reviewed id r hr hst).2⟩

lemma Lifecycle.putVersion (hp : Pointed (s.putVersion r))
    (hrev : approvedOnce r.status → Reviewed calls r.versionId r) :
    Lifecycle calls (s.putVersion r) where
  toPointed := hp
  reviewed := by
    intro id r' hr' hst
    rw [putVersion_find] at hr'
    split at hr'
    · rename_i e
      cases hr'
      exact e ▸ hrev hst
    · exact h.reviewed id r' hr' hst

lemma Lifecycle.switchTo (hfind : s.configVersions.find versionId = some target)
    (hst : approvedOnce target.status)
    (activator : String) (ms : ℤ) : Lifecycle calls (s.switchTo versionId activator ms target) where
  toPointed := h.toPointed.switchTo hfind activator ms
  reviewed := by
    intro id r hr hact
    rw [find_switchTo hfind] at hr
    split at hr
    · rename_i e
      cases hr
      exact h.reviewed id target (e ▸ hfind) hst
    · split at hr
      · rename_i hid hold
        obtain ⟨prev, hprev, rfl⟩ := Option.map_eq_some_iff.1 hr
        obtain ⟨act, hact', hst'⟩ := h.pointer (hold.1 ▸ hold.2)
        rw [← hold.1, hprev] at hact'
        cases hact'
        exact h.reviewed id prev hprev (.inr (.inl hst'))
      · exact h.reviewed id r hr hact

lemma Lifecycle.step (req : Request) : Lifecycle (calls ++ [req]) (atomically d s req) := by
  have h' : Lifecycle (calls ++ [req]) s := h.mono fun c hc => List.mem_append_left _ hc
  rcases atomically_cases d s req with e | hw
  · rw [e]
    exact h'
  · have hp := h.toPointed.write hw
    generalize atomically d s req = s' at hw hp
    cases hw with
    | submit hacc =>
      refine h'.putVersion hp ?_
      rintro (hst | hst | hst) <;> cases hst
    | approve hfind hother hst =>
      refine h'.putVersion hp fun _ => ⟨Ne.symm hother, ?_⟩
      rw [reviewed_versionId, key_of_find hfind]
      exact List.mem_append_right _ (List.mem_singleton_self _)
    | reject hfind hst =>
      refine h'.putVersion hp ?_
      rintro (hst | hst | hst) <;> cases hst
    | activate hfind hst => exact h'.switchTo hfind (.inl hst) _ _
    | rollback hfind hst => exact h'.switchTo hfind (.inr (.inr hst)) _ _

end

end

/-- in every run from an empty store: at most one version is active, the active id is set exactly
then and names it, and what is active or superseded was approved in the run by a reviewer other than
its submitter -/
theorem config_lifecycle (d : Deps) (initialized : Bool) (calls : List Request) :
    let s := Run.exec (atomically d) { initialized } calls
    (∀ id₁ id₂ r₁ r₂, s.configVersions.find id₁ = some r₁ → s.configVersions.find id₂ = some r₂ →
      r₁.status = .active → r₂.status = .active → id₁ = id₂) ∧
    (s.activeConfigVersionId ≠ "" ↔ ∃ id r, s.configVersions.find id = some r ∧ r.status = .active) ∧
    (∀ id r, s.configVersions.find id = some r → r.status = .active →
      s.activeConfigVersionId = id) ∧
    (∀ id r, s.configVersions.find id = some r → r.status = .active ∨ r.status = .superseded →
      r.reviewer ≠ r.submitter ∧
        Request.approve id r.reviewer r.reviewerComment r.reviewedAt ∈ calls) := by
  intro s
  have h : Lifecycle calls s :=
    Run.exec_inv_inputs (Lifecycle.empty initialized) (fun l t a ht => ht.step a) calls
  refine ⟨fun id₁ id₂ r₁ r₂ h1 h2 hst1 hst2 => ?_, ⟨fun hne => ?_, ?_⟩, h.active,
    fun id r hr hst => h.reviewed id r hr (.inr hst)⟩
  · rw [← h.active id₁ r₁ h1 hst1, h.active id₂ r₂ h2 hst2]
  · obtain ⟨r, hr, hst⟩ := h.pointer hne
    exact ⟨_, r, hr, hst⟩
  · rintro ⟨id, r, hr, hst⟩
    rw [h.active id r hr hst]
    exact h.ne_empty hr

/-! ## no two live versions with the same content -/

/-- the statuses that `submit` compares with -/
def live (st : ConfigStatus) : Prop := st = .pending ∨ st = .approved ∨ st = .active

def NoDuplicateLive (s : MemoryPersistentStore) : Prop :=
  ∀ id₁ id₂ r₁ r₂, s.configVersions.find id₁ = some r₁ → s.configVersions.find id₂ = some r₂ →
    live r₁.status → live r₂.status → r₁.contentSha256 = r₂.contentSha256 → id₁ = id₂

/-- what the request must not do: be accepted while a live version with its content is not among the
newest 500, or roll back to a version whose content is live in another version than the active one -/
def KeepsContent (d : Deps) (s : MemoryPersistentStore) : Request → Prop
  | .submit yaml _ _ validateOnly rateAllowed _ versionId =>
    Accepted d s yaml validateOnly rateAllowed versionId →
      ∀ id r, s.configVersions.find id = some r → live r.status →
        r.contentSha256 = d.sha256 yaml → r ∈ s.listConfigVersions dedupeQuery
  | .rollback versionId _ emergency _ =>
    emergency = false → ∀ target, s.configVersions.find versionId = some target →
      target.status = .superseded → ∀ id r, s.configVersions.find id = some r → live r.status →
          r.contentSha256 = target.contentSha256 → id = s.activeConfigVersionId
  | _ => True

section
variable {d : Deps} {s s' : MemoryPersistentStore} {versionId : String} {calls : List Request}

section
variable (h : NoDuplicateLive s)
include h

lemma NoDuplicateLive.of_rows
    (hrows : ∀ id r', s'.configVersions.find id = some r' → live r'.status →
      ∃ r, s.configVersions.find id = some r ∧ live r.status ∧
        r.contentSha256 = r'.contentSha256) : NoDuplicateLive s' := by
  intro id1 id2 r1 r2 h1 h2 hl1 hl2 hsha
  obtain ⟨q1, hq1, hlive1, e1⟩ := hrows id1 r1 h1 hl1
  obtain ⟨q2, hq2, hlive2, e2⟩ := hrows id2 r2 h2 hl2
  exact h id1 id2 q1 q2 hq1 hq2 hlive1 hlive2 (by rw [e1, e2, hsha])

lemma noDuplicateLive_insert_iff {id : String} {r : ConfigVersionRecord} (hlive : live r.status)
    (hfind : s'.configVersions.find id = some r) (hrest : ∀ k ≠ id, ∀ q, live q.status →
      (s'.configVersions.find k = some q → s.configVersions.find k = some q)) :
    NoDuplicateLive s' ↔ ∀ k q, k ≠ id → s'.configVersions.find k = some q → live q.status →
      q.contentSha256 ≠ r.contentSha256 := by
  constructor
  · intro h' k q hk hq hql hsha
    exact hk (h' k id q r hq hfind hql hlive hsha)
  · intro h' id1 id2 r1 r2 h1 h2 hl1 hl2 hsha
    by_cases e1 : id1 = id <;> by_cases e2 : id2 = id
    · rw [e1, e2]
    · rw [e1, hfind] at h1
      cases h1
      exact absurd hsha.symm (h' id2 r2 e2 h2 hl2)
    · rw [e2, hfind] at h2
      cases h2
      exact absurd hsha (h' id1 r1 e1 h1 hl1)
    · exact h id1 id2 r1 r2 (hrest id1 e1 r1 hl1 h1) (hrest id2 e2 r2 hl2 h2) hl1 hl2 hsha

lemma noDuplicateLive_submit_iff (yaml submitter comment : String)
    (validateOnly rateAllowed : Bool) (now : ℤ) (versionId : String) :
    NoDuplicateLive (atomically d s
        (.submit yaml submitter comment validateOnly rateAllowed now versionId)) ↔
      KeepsContent d s (.submit yaml submitter comment validateOnly rateAllowed now versionId) := by
  unfold atomically Request.prog KeepsContent
  rcases run_submit d s yaml submitter comment validateOnly rateAllowed now versionId with
    ⟨hacc, e⟩ | ⟨hno, e⟩
  · have hnew : (s.putVersion (submitted d yaml submitter comment now versionId)).configVersions.find
        versionId = some (submitted d yaml submitter comment now versionId) :=
      find_put_self _ (submitted d yaml submitter comment now versionId)
    have hrest : ∀ k ≠ versionId,
        (s.putVersion (submitted d yaml submitter comment now versionId)).configVersions.find k =
          s.configVersions.find k := by
      intro k hk
      exact find_put_ne (Ne.symm hk)
    rw [e, noDuplicateLive_insert_iff h (.inl rfl) hnew fun k hk q _ hq => hrest k hk ▸ hq]
    constructor
    · intro h' _ id r hr hlive hsha
      have hid : id ≠ versionId := by
        rintro rfl
        rw [hacc.unused] at hr
        cases hr
      exact absurd hsha (h' id r hid (by rw [hrest id hid]; exact hr) hlive)
    · intro h' k q hk hq hlive hsha
      rw [hrest k hk] at hq
      exact hacc.fresh q (h' hacc k q hq hlive hsha) hsha
  · rw [e]
    exact ⟨fun _ hacc => absurd hacc hno, fun _ => h⟩

end

lemma noDuplicateLive_rollback_iff (hcycle : Lifecycle calls s) (h : NoDuplicateLive s)
    (versionId activator : String) (emergency : Bool) (now : ℤ) :
    NoDuplicateLive (atomically d s (.rollback versionId activator emergency now)) ↔
      KeepsContent d s (.rollback versionId activator emergency now) := by
  unfold atomically Request.prog KeepsContent
  rcases run_rollback versionId activator emergency now s with
    ⟨rfl, target, hfind, hst, e⟩ | ⟨hno, e⟩
  · have hsplit := find_switchTo hfind activator now
    have hrest : ∀ k ≠ versionId, ∀ q, live q.status →
        ((s.switchTo versionId activator now target).configVersions.find k = some q ↔
          s.configVersions.find k = some q ∧ k ≠ s.activeConfigVersionId) := by
      intro k hk q hlive
      rw [hsplit, if_neg hk]
      split
      · rename_i hact
        constructor
        · intro hq
          obtain ⟨prev, -, rfl⟩ := Option.map_eq_some_iff.1 hq
          rcases hlive with hl | hl | hl <;> cases hl
        · rintro ⟨-, hne⟩
          exact absurd hact.1 hne
      · rename_i hact
        exact ⟨fun hq => ⟨hq, fun hk' => hact ⟨hk', hcycle.ne_empty hq⟩⟩, fun hq => hq.1⟩
    have hnew : (s.switchTo versionId activator now target).configVersions.find versionId =
        some (activated activator now target) := by
      rw [hsplit, if_pos rfl]
    rw [e, noDuplicateLive_insert_iff h (.inr (.inr rfl)) hnew
      (fun k hk q hlive hq => ((hrest k hk q hlive).1 hq).1)]
    constructor
    · intro h' _ target' hfind' _ id r hr hlive hsha
      rw [hfind] at hfind'
      cases hfind'
      have hid : id ≠ versionId := by
        rintro rfl
        rw [hfind] at hr
        cases hr
        rw [hst] at hlive
        rcases hlive with hl | hl | hl <;> cases hl
      by_contra hact
      exact h' id r hid ((hrest id hid r hlive).2 ⟨hr, hact⟩) hlive hsha
    · intro h' k q hk hq hlive hsha
      obtain ⟨hq', hne⟩ := (hrest k hk q hlive).1 hq
      exact hne (h' rfl target hfind hst k q hq' hlive hsha)
  · rw [e]
    refine ⟨fun _ hem target hfind hst => ?_, fun _ => h⟩
    rcases hno with hno | hno
    · rw [hem] at hno
      cases hno
    · exact absurd hst (hno target hfind)

lemma NoDuplicateLive.review (h : NoDuplicateLive s) {existing : ConfigVersionRecord}
    (hfind : s.configVersions.find versionId = some existing) (hlive : live existing.status)
    (target : ConfigStatus) (reviewer comment : String) (now : ℤ) : NoDuplicateLive
      (s.putVersion (reviewed target reviewer comment now existing)) := by
  refine h.of_rows fun id r' hr' hl' => ?_
  rw [putVersion_find, reviewed_versionId, key_of_find hfind] at hr'
  split at hr'
  · rename_i hid
    cases hr'
    refine ⟨existing, hid ▸ hfind, hlive, ?_⟩
    unfold reviewed
    split <;> rfl
  · exact ⟨r', hr', hl', rfl⟩

lemma NoDuplicateLive.activate (h : NoDuplicateLive s) {target : ConfigVersionRecord}
    (hfind : s.configVersions.find versionId = some target) (hst : target.status = .approved)
    (activator : String) (now : ℤ) :
    NoDuplicateLive (s.switchTo versionId activator now target) := by
  refine h.of_rows fun id r' hr' hl' => ?_
  rw [find_switchTo hfind] at hr'
  split at hr'
  · rename_i hid
    cases hr'
    exact ⟨target, hid ▸ hfind, .inr (.inl hst), rfl⟩
  · split at hr'
    · obtain ⟨prev, -, rfl⟩ := Option.map_eq_some_iff.1 hr'
      rcases hl' with hl | hl | hl <;> cases hl
    · exact ⟨r', hr', hl', rfl⟩

lemma noDuplicateLive_step_iff (hcycle : Lifecycle calls s) (h : NoDuplicateLive s)
    (req : Request) : NoDuplicateLive (atomically d s req) ↔ KeepsContent d s req := by
  cases req with
  | submit yaml submitter comment validateOnly rateAllowed now versionId =>
    exact noDuplicateLive_submit_iff h _ _ _ _ _ _ _
  | rollback versionId activator emergency now =>
    exact noDuplicateLive_rollback_iff hcycle h _ _ _ _
  | approve versionId reviewer comment now =>
    refine ⟨fun _ => trivial, fun _ => ?_⟩
    rcases atomically_cases d s (.approve versionId reviewer comment now) with e | hw
    · rw [e]
      exact h
    · generalize atomically d s _ = s' at hw
      cases hw with
      | approve hfind _ hst => exact h.review hfind (.inl hst) _ _ _ _
  | reject versionId reviewer comment now =>
    refine ⟨fun _ => trivial, fun _ => ?_⟩
    rcases atomically_cases d s (.reject versionId reviewer comment now) with e | hw
    · rw [e]
      exact h
    · generalize atomically d s _ = s' at hw
      cases hw with
      | reject hfind hst =>
        refine h.review hfind ?_ _ _ _ _
        exact hst.elim .inl fun hst => .inr (.inl hst)
  | activate versionId activator now =>
    refine ⟨fun _ => trivial, fun _ => ?_⟩
    rcases atomically_cases d s (.activate versionId activator now) with e | hw
    · rw [e]
      exact h
    · generalize atomically d s _ = s' at hw
      cases hw with
      | activate hfind hst => exact h.activate hfind hst _ _

end

/-- no two live versions ever have the same content exactly when no submission is accepted over a
live version it does not see and no rollback revives content that is live elsewhere -/
theorem no_duplicate_live_iff (d : Deps) (initialized : Bool) (calls : List Request) :
    (∀ calls', calls' <+: calls →
      NoDuplicateLive (Run.exec (atomically d) { initialized } calls')) ↔
      Run.Along (atomically d) (KeepsContent d) { initialized } calls := by
  have hempty : NoDuplicateLive { initialized } := fun id1 id2 r1 r2 h => by cases h
  rw [← Run.along_after_iff calls _ hempty]
  refine Run.along_congr (I := fun s => (∃ calls, Lifecycle calls s) ∧ NoDuplicateLive s)
    (A := fun _ => True) ?_ ?_ calls _ ⟨⟨[], Lifecycle.empty initialized⟩, hempty⟩ fun _ _ => trivial
  · rintro s req ⟨⟨past, hcycle⟩, h⟩ -
    exact noDuplicateLive_step_iff hcycle h req
  · rintro s req ⟨⟨past, hcycle⟩, h⟩ - hkeeps
    exact ⟨⟨_, hcycle.step req⟩, (noDuplicateLive_step_iff hcycle h req).2 hkeeps⟩

/-- `A` is superseded by `B`, its text is submitted again as `C`, and `A` is rolled back to -/
def revivedContent : List Request :=
  [.submit "v: 1" "alice" "" false true 1 "A", .approve "A" "bob" "" 2, .activate "A" "bob" 3,
   .submit "v: 2" "alice" "" false true 4 "B", .approve "B" "bob" "" 5, .activate "B" "bob" 6,
   .submit "v: 1" "alice" "" false true 7 "C", .rollback "A" "bob" false 8]

theorem rollback_duplicates_content :
    ¬ NoDuplicateLive (Run.exec (atomically acceptAll) {} revivedContent) := by
  intro h
  have e : "A" = "C" := h "A" "C" _ _ rfl rfl (.inr (.inr rfl)) (.inl rfl) rfl
  exact absurd e (by decide)

end AegisGate.ControlPlane
