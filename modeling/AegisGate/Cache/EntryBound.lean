import AegisGate.Cache.Representation
import AegisGate.Lib.Position

/-!
# Puts in progress at the same time

A put takes the lock twice: to make room and take an id, and to commit the entry.  In between it
calls the vector store, and other puts go on.

* `PutThread`, `advance`  a put between two of its steps;
* `Puts`, `putsStep`  any number of them over one cache, stepping in any order;
* `Accounted k s ids`  with `ids` under way, the entries and the ids together are at most
  `maxEntries - 1 + k`.

Room is made for one entry and not kept for it.  So with at most `k` puts in progress the cache has at
most `maxEntries - 1 + k` entries, and from `k = 2` on it can have more than `maxEntries`:
`entries_bounded_iff`.
-/

namespace AegisGate.Cache

open List Nat Run Table

inductive PutThread where
  | begin (r : PutRequest)
  /-- the removals that are left before the insert -/
  | storing (r : PutRequest) (id : String) (removed : List (String × String))
  | committing (r : PutRequest) (id : String)
  | done

open PutThread

/-- the id that a put has taken and may still commit -/
def PutThread.pendingId : PutThread → Option String
  | .storing _ id _ => some id
  | .committing _ id => some id
  | _ => none

def PutThread.isDone : PutThread → Bool
  | .done => true
  | _ => false

structure Puts (σ : Type) where
  world : World σ
  threads : List PutThread := []

inductive PutEvent where
  | arrive (r : PutRequest)
  | step (i : Nat)

section
variable (cfg : CacheConfig) {σ : Type} (V : VectorStore σ)

/-- the next step of a put: a critical section or one call of the vector store -/
def advance (w : World σ) : PutThread → World σ × PutThread
  | .begin r =>
    let a := allocate cfg r.model r.now w.cache
    (⟨a.2, w.vectors⟩, .storing r a.1.1 a.1.2)
  | .storing r id ((rid, rpk) :: removed) =>
    (⟨w.cache, (V.remove w.vectors rpk rid).2⟩, .storing r id removed)
  | .storing r id [] =>
    let i := V.insert w.vectors r.partitionKey id (cfg.embed r.prompt)
    (⟨w.cache, i.2⟩, if i.1 then .committing r id else .done)
  | .committing r id => (⟨commit cfg (r.entry id) w.cache, w.vectors⟩, .done)
  | .done => (w, .done)

def putsStep (P : Puts σ) : PutEvent → Puts σ
  | .arrive r => { P with threads := P.threads ++ [.begin r] }
  | .step i =>
    match P.threads[i]? with
    | none => P
    | some t => ⟨(advance cfg V P.world t).1, P.threads.set i (advance cfg V P.world t).2⟩

end

def Puts.inFlight {σ : Type} (P : Puts σ) : Nat := P.threads.countP (!·.isDone)

def Puts.pendingIds {σ : Type} (P : Puts σ) : List String :=
  P.threads.filterMap pendingId

/-! ## entries and ids under way -/

/-- an id that this process has given out and that is no entry -/
def Reserved (s : CacheState) (id : String) : Prop :=
  (∃ ns q, id = makeEntryId ns q ∧ q < s.seqCounter) ∧ s.entries.find id = none

structure Accounted (maxEntries k : Nat) (s : CacheState) (ids : List String) : Prop where
  represents : Represents s
  numbered : Numbered s
  reserved : ∀ id ∈ ids, Reserved s id
  nodup : ids.Nodup
  total : s.entries.size + ids.length ≤ maxEntries - 1 + k

section
variable {cfg : CacheConfig} {k : Nat} {s : CacheState} {ids : List String}

lemma Accounted.perm {ids' : List String} (h : Accounted cfg.maxEntries k s ids)
    (hp : ids.Perm ids') : Accounted cfg.maxEntries k s ids' where
  represents := h.represents
  numbered := h.numbered
  reserved := fun id hid => h.reserved id (hp.mem_iff.2 hid)
  nodup := hp.nodup_iff.1 h.nodup
  total := hp.length_eq ▸ h.total

lemma size_sweep (cfg : CacheConfig) (now : Int) (s : CacheState) :
    (sweep cfg now s).2.entries.size ≤ s.entries.size := by
  have hdrop (t : CacheState) (id : String) (ht : t.entries.size ≤ s.entries.size) :
      (t.drop id).entries.size ≤ s.entries.size := by
    rw [entries_drop]
    have := size_erase t.entries id
    omega
  unfold sweep
  split
  · exact evictExpiredLocked_keeps hdrop cfg now (le_refl _)
  · exact le_refl _

lemma size_makeRoom (h : Represents s) (hmax : 1 ≤ cfg.maxEntries) :
    (makeRoom cfg s).2.entries.size + 1 ≤ max s.entries.size cfg.maxEntries := by
  unfold makeRoom
  split
  · next hfull =>
    cases hb : s.lruList.back? with
    | none =>
      exfalso
      have hnil : s.lruList.nodes = [] := NodeList.nodes_of_back_none hb
      obtain ⟨e, he⟩ := exists_mem_of_length_pos (l := s.entries.rows)
        (lt_of_lt_of_le hmax hfull)
      have hmem := (h.ids e.id).1.2 (by rw [find_eq_some_iff.2 ⟨he, rfl⟩]; rfl)
      rw [NodeList.values, hnil] at hmem
      cases hmem
    | some id =>
      obtain ⟨node, hn⟩ := NodeList.split_back hb
      have hmem : id ∈ s.lruList.values := NodeList.mem_values.2 ⟨node, by rw [hn]; simp⟩
      have hsome := (h.ids id).1.1 hmem
      have hsize := size_erase s.entries id
      rw [if_pos hsome] at hsize
      rw [evictLRU_eq_drop h hb, entries_drop]
      omega
  · next hroom =>
    show s.entries.size + 1 ≤ _
    omega

lemma size_allocate (h : Represents s) (hmax : 1 ≤ cfg.maxEntries) (model : String) (now : Int) :
    (allocate cfg model now s).2.entries.size + 1 ≤ max s.entries.size cfg.maxEntries := by
  have h1 := size_sweep cfg now s
  have h2 := size_makeRoom (h.sweep cfg now) hmax
  show (makeRoom cfg (sweep cfg now s).2).2.entries.size + 1 ≤ _
  omega

lemma Accounted.allocate (h : Accounted cfg.maxEntries k s ids) (hmax : 1 ≤ cfg.maxEntries)
    (hk : ids.length < k) (model : String) (now : Int) :
    Accounted cfg.maxEntries k (allocate cfg model now s).2
      ((allocate cfg model now s).1.1 :: ids) := by
  obtain ⟨hid, hseq, hsub⟩ := allocate_spec cfg model now s
  have hnone {x : String} (hx : s.entries.find x = none) :
      (Cache.allocate cfg model now s).2.entries.find x = none := by
    rw [← Option.not_isSome_iff_eq_none]
    intro hs
    have := hsub x hs
    rw [hx] at this
    cases this
  refine ⟨h.represents.allocate cfg model now, fun x hx => ?_, fun x hx => ?_, ?_, ?_⟩
  · obtain ⟨ns, q, e, hq⟩ := h.numbered x (hsub x hx)
    exact ⟨ns, q, e, by omega⟩
  · rcases mem_cons.1 hx with rfl | hx
    · refine ⟨⟨_, _, hid, by omega⟩, ?_⟩
      rw [hid]
      exact hnone (h.numbered.find_next _ (le_refl _))
    · obtain ⟨⟨ns, q, e, hq⟩, hx⟩ := h.reserved x hx
      exact ⟨⟨ns, q, e, by omega⟩, hnone hx⟩
  · refine nodup_cons.2 ⟨fun hmem => ?_, h.nodup⟩
    obtain ⟨⟨ns, q, e, hq⟩, -⟩ := h.reserved _ hmem
    rw [hid] at e
    exact absurd (makeEntryId_inj e) (by omega)
  · have hsize := size_allocate h.represents hmax model now
    have htotal := h.total
    rw [length_cons]
    omega

lemma Accounted.abandon {id : String} (h : Accounted cfg.maxEntries k s (id :: ids)) :
    Accounted cfg.maxEntries k s ids where
  represents := h.represents
  numbered := h.numbered
  reserved := fun x hx => h.reserved x (mem_cons_of_mem _ hx)
  nodup := (nodup_cons.1 h.nodup).2
  total := by
    have := h.total
    rw [length_cons] at this
    omega

lemma Accounted.commit {e : CacheEntry} (h : Accounted cfg.maxEntries k s (e.id :: ids)) :
    Accounted cfg.maxEntries k (commit cfg e s) ids := by
  obtain ⟨⟨ns, q, hid, hq⟩, hnone⟩ := h.reserved e.id mem_cons_self
  obtain ⟨hnot, hnodup⟩ := nodup_cons.1 h.nodup
  refine ⟨(h.represents.commit_iff cfg e).2 hnone, h.numbered.commit hid hq, fun x hx => ?_, hnodup,
    ?_⟩
  · obtain ⟨hgiven, hfree⟩ := h.reserved x (mem_cons_of_mem _ hx)
    refine ⟨hgiven, ?_⟩
    show (s.entries.put e).find x = none
    rw [find_put, if_neg, hfree]
    rintro rfl
    exact hnot hx
  · have htotal := h.total
    rw [length_cons] at htotal
    show (s.entries.put e).size + ids.length ≤ _
    rw [size_put, hnone]
    simp only [Option.isSome_none, Bool.false_eq_true, if_false]
    omega

end

/-! ## any number of puts -/

section
variable (cfg : CacheConfig) {σ : Type} (V : VectorStore σ)

lemma putsStep_split {P : Puts σ} {a b : List PutThread} {t : PutThread}
    (h : P.threads = a ++ t :: b) : putsStep cfg V P (.step a.length) =
      ⟨(advance cfg V P.world t).1, a ++ (advance cfg V P.world t).2 :: b⟩ := by
  have hget : P.threads[a.length]? = some t := by
    rw [h, getElem?_append_right (Nat.le_refl _), Nat.sub_self]
    rfl
  rw [putsStep, hget]
  simp only
  rw [h, Position.set_split]

lemma perm_pendingIds (a b : List PutThread) (t : PutThread) :
    ((a ++ t :: b).filterMap pendingId).Perm
      (t.pendingId.toList ++ (a ++ b).filterMap pendingId) := by
  rw [filterMap_append, filterMap_append]
  cases h : t.pendingId with
  | none => rw [filterMap_cons_none h, Option.toList_none, nil_append]
  | some id =>
    rw [filterMap_cons_some h]
    exact perm_middle

lemma length_pendingIds_le (l : List PutThread) :
    (l.filterMap pendingId).length ≤ l.countP (!·.isDone) := by
  induction l with
  | nil => exact le_refl _
  | cons t l ih =>
    rw [countP_cons]
    cases t with
    | begin r => exact le_succ_of_le ih
    | storing r id removed | committing r id => exact succ_le_succ ih
    | done => exact ih

variable {cfg} {k : Nat}

section
variable (hmax : 1 ≤ cfg.maxEntries)
include hmax

theorem Accounted.advance {w : World σ} {t : PutThread}
    {ids : List String} (h : Accounted cfg.maxEntries k w.cache (t.pendingId.toList ++ ids))
    (hk : ∀ r, t = .begin r → ids.length < k) :
    Accounted cfg.maxEntries k (advance cfg V w t).1.cache
      ((advance cfg V w t).2.pendingId.toList ++ ids) := by
  cases t with
  | begin r => exact h.allocate hmax (hk r rfl) r.model r.now
  | storing r id removed =>
    cases removed with
    | cons x removed => exact h
    | nil =>
      unfold Cache.advance
      simp only
      split
      · exact h
      · exact h.abandon
  | committing r id => exact Accounted.commit (e := r.entry id) h
  | done => exact h

lemma Accounted.step {P : Puts σ}
    (h : Accounted cfg.maxEntries k P.world.cache P.pendingIds) (hk : P.inFlight ≤ k)
    (e : PutEvent) : Accounted cfg.maxEntries k (putsStep cfg V P e).world.cache
      (putsStep cfg V P e).pendingIds := by
  cases e with
  | arrive r =>
    have hids : (putsStep cfg V P (.arrive r)).pendingIds = P.pendingIds := by
      show (P.threads ++ [begin r]).filterMap _ = _
      rw [filterMap_append]
      exact append_nil _
    rw [hids]
    exact h
  | step i =>
    cases hi : P.threads[i]? with
    | none =>
      rw [putsStep, hi]
      exact h
    | some t =>
      obtain ⟨a, b, hab, rfl⟩ := Position.split_of_getElem? hi
      have hperm := perm_pendingIds a b t
      rw [← hab] at hperm
      rw [putsStep_split cfg V hab]
      refine Accounted.perm ?_ (perm_pendingIds a b _).symm
      refine (h.perm hperm).advance V hmax fun r hr => ?_
      -- a put that begins is in flight beside those that have an id
      have hlen := length_pendingIds_le (a ++ b)
      rw [Puts.inFlight, hab, countP_append, countP_cons, hr] at hk
      rw [countP_append] at hlen
      change a.countP _ + (b.countP _ + 1) ≤ k at hk
      omega

lemma size_le_of_inFlight (v : σ) (l : List PutEvent)
    (hk : ∀ l', l' <+: l → (exec (putsStep cfg V) ⟨⟨{}, v⟩, []⟩ l').inFlight ≤ k) :
    ∀ l', l' <+: l → (exec (putsStep cfg V) ⟨⟨{}, v⟩, []⟩ l').world.cache.entries.size ≤
      cfg.maxEntries - 1 + k := by
  have h0 : Accounted cfg.maxEntries k (⟨⟨{}, v⟩, []⟩ : Puts σ).world.cache
      (⟨⟨{}, v⟩, []⟩ : Puts σ).pendingIds :=
    ⟨represents_new, nofun, nofun, nodup_nil, zero_le _⟩
  have hinv := Along.inv
    (I := fun P : Puts σ => Accounted cfg.maxEntries k P.world.cache P.pendingIds)
    (A := fun _ => True) (fun P e hP _ hk => hP.step V hmax hk e) l _ h0 (fun _ _ => trivial)
    (along_of_states l _ hk)
  intro l' hl'
  have := (hinv l' hl').total
  omega

end

end

/-! ## two puts that overlap -/

section
variable {cfg : CacheConfig} {s : CacheState} {n : Nat} {a : List PutThread} {P' Q P : Puts Unit}

/-- a cache with `n` entries, all of them put at time zero -/
structure Filled (n : Nat) (s : CacheState) : Prop where
  numbered : Numbered s
  size : s.entries.size = n
  young : ∀ e ∈ s.entries.rows, e.createdAt = 0

def counted (s : CacheState) : CacheState :=
  { s with putCounter := s.putCounter + 1, seqCounter := s.seqCounter + 1 }

lemma Filled.allocate (h : Filled n s) (hn : n < cfg.maxEntries) (model : String) :
    allocate cfg model 0 s =
      ((makeEntryId (makeNamespace cfg model) s.seqCounter, []), counted s) := by
  have hyoung : s.entries.rows.filter (CacheEntry.isExpired cfg 0) = [] := by
    rw [filter_eq_nil_iff]
    intro e he
    rw [CacheEntry.isExpired, h.young e he]
    simp
  have hsweep : sweep cfg 0 s = ([], { s with putCounter := s.putCounter + 1 }) := by
    unfold sweep evictExpiredLocked
    simp only [hyoung, map_nil, foldl_nil, ite_self]
  have hroom : makeRoom cfg { s with putCounter := s.putCounter + 1 } =
      ([], { s with putCounter := s.putCounter + 1 }) := by
    unfold makeRoom
    rw [if_neg]
    show ¬ s.entries.size ≥ cfg.maxEntries
    rw [h.size]
    omega
  unfold Cache.allocate
  simp only [hsweep, hroom, append_nil]
  rfl

lemma Filled.count (h : Filled n s) : Filled n (counted s) := by
  refine ⟨fun id hid => ?_, h.size, h.young⟩
  obtain ⟨ns, q, e, hq⟩ := h.numbered id hid
  exact ⟨ns, q, e, lt_succ_of_lt hq⟩

lemma Filled.commit (h : Filled n s) (cfg : CacheConfig) {ns : String} {q : Nat}
    (hq : q < s.seqCounter) (hnone : s.entries.find (makeEntryId ns q) = none) :
    Filled (n + 1) (commit cfg (samplePut.entry (makeEntryId ns q)) s) := by
  refine ⟨h.numbered.commit rfl hq, ?_, fun e he => ?_⟩
  · show (s.entries.put (samplePut.entry (makeEntryId ns q))).size = n + 1
    have hnone : s.entries.find (samplePut.entry (makeEntryId ns q)).id = none := hnone
    rw [size_put, hnone, h.size]
    rfl
  · have he : e ∈ samplePut.entry (makeEntryId ns q) :: s.entries.rows.filter _ := he
    rcases mem_cons.1 he with rfl | he
    · rfl
    · exact h.young e (mem_filter.1 he).1

def nextId (cfg : CacheConfig) (s : CacheState) : String :=
  makeEntryId (makeNamespace cfg samplePut.model) s.seqCounter

lemma Filled.advance_begin (h : Filled n s) (hn : n < cfg.maxEntries) :
    advance cfg acceptAll ⟨s, ()⟩ (.begin samplePut) =
      (⟨counted s, ()⟩, .storing samplePut (nextId cfg s) []) := by
  have ha : Cache.allocate cfg samplePut.model samplePut.now s = _ := h.allocate hn samplePut.model
  simp only [advance, ha]
  rfl

lemma inFlight_le {w : World Unit} (ha : ∀ t ∈ a, t = .done) (b : List PutThread) :
    (⟨w, a ++ b⟩ : Puts Unit).inFlight ≤ b.length := by
  have h0 : a.countP (!·.isDone) = 0 := by
    rw [countP_eq_zero]
    intro t ht
    rw [ha t ht]
    exact Bool.false_ne_true
  rw [Puts.inFlight, countP_append, h0, Nat.zero_add]
  exact countP_le_length

/-- a run from `P` to `Q` in which at most two puts are in progress -/
def PairedRun (cfg : CacheConfig) (P : Puts Unit) (l : List PutEvent) (Q : Puts Unit) : Prop :=
  exec (putsStep cfg acceptAll) P l = Q ∧
    Along (putsStep cfg acceptAll) (fun P e => (putsStep cfg acceptAll P e).inFlight ≤ 2) P l

lemma PairedRun.nil (P : Puts Unit) : PairedRun cfg P [] P := ⟨rfl, trivial⟩

lemma PairedRun.cons {e : PutEvent} {l : List PutEvent}
    (hstep : putsStep cfg acceptAll P e = P') (hle : P'.inFlight ≤ 2) (h : PairedRun cfg P' l Q) :
    PairedRun cfg P (e :: l) Q := by
  subst hstep
  exact ⟨h.1, hle, h.2⟩

lemma PairedRun.append {l1 l2 : List PutEvent} (h1 : PairedRun cfg P l1 P')
    (h2 : PairedRun cfg P' l2 Q) : PairedRun cfg P (l1 ++ l2) Q := by
  obtain ⟨rfl, ha⟩ := h1
  refine ⟨?_, (along_append l1 l2 P).2 ⟨ha, h2.2⟩⟩
  rw [exec_append, h2.1]

lemma putsStep_second (cfg : CacheConfig) (w : World Unit) (a : List PutThread) (x t : PutThread) :
    putsStep cfg acceptAll ⟨w, a ++ [x, t]⟩ (.step (a.length + 1)) =
      ⟨(advance cfg acceptAll w t).1, a ++ [x, (advance cfg acceptAll w t).2]⟩ := by
  have h := putsStep_split cfg acceptAll (P := ⟨w, a ++ [x, t]⟩) (a := a ++ [x]) (t := t) (b := [])
    (by simp)
  rw [length_append, length_singleton, append_assoc] at h
  exact h

lemma inFlight_one (ha : ∀ t ∈ a, t = .done) (w : World Unit) (t : PutThread) :
    (⟨w, a ++ [t]⟩ : Puts Unit).inFlight ≤ 2 :=
  (inFlight_le ha [t]).trans (le_succ 1)

section
variable (h : Filled n s) (hn : n < cfg.maxEntries) (ha : ∀ t ∈ a, t = .done)
include h hn ha

lemma serial_put :
    PairedRun cfg ⟨⟨s, ()⟩, a⟩ [.arrive samplePut, .step a.length, .step a.length, .step a.length]
      ⟨⟨commit cfg (samplePut.entry (nextId cfg s)) (counted s), ()⟩, a ++ [.done]⟩ := by
  have hle := inFlight_one ha
  have hbegin := putsStep_split cfg acceptAll (P := ⟨⟨s, ()⟩, a ++ [.begin samplePut]⟩) rfl
  rw [h.advance_begin hn] at hbegin
  exact .cons rfl (hle _ _) (.cons hbegin (hle _ _) (.cons (putsStep_split cfg acceptAll rfl) (hle _ _)
    (.cons (putsStep_split cfg acceptAll rfl) (hle _ _) (.nil _))))

lemma paired_puts :
    PairedRun cfg ⟨⟨s, ()⟩, a⟩
      [.arrive samplePut, .arrive samplePut, .step a.length, .step (a.length + 1), .step a.length,
        .step (a.length + 1), .step a.length, .step (a.length + 1)]
      ⟨⟨commit cfg (samplePut.entry (nextId cfg (counted s)))
        (commit cfg (samplePut.entry (nextId cfg s)) (counted (counted s))), ()⟩,
        a ++ [.done, .done]⟩ := by
  have hle (w : World Unit) (t u : PutThread) : (⟨w, a ++ [t, u]⟩ : Puts Unit).inFlight ≤ 2 :=
    inFlight_le ha [t, u]
  have harrive : putsStep cfg acceptAll ⟨⟨s, ()⟩, a ++ [.begin samplePut]⟩ (.arrive samplePut) =
      ⟨⟨s, ()⟩, a ++ [.begin samplePut, .begin samplePut]⟩ := by
    rw [putsStep, append_assoc]
    rfl
  have hfirst := putsStep_split cfg acceptAll
    (P := ⟨⟨s, ()⟩, a ++ [.begin samplePut, .begin samplePut]⟩) rfl
  rw [h.advance_begin hn] at hfirst
  have hsecond := putsStep_second cfg ⟨counted s, ()⟩ a
    (.storing samplePut (nextId cfg s) []) (.begin samplePut)
  rw [h.count.advance_begin hn] at hsecond
  refine .cons rfl (inFlight_one ha _ _) (.cons harrive (hle _ _ _) (.cons hfirst (hle _ _ _)
    (.cons hsecond (hle _ _ _) (.cons (putsStep_split cfg acceptAll rfl) (hle _ _ _)
      (.cons (putsStep_second cfg _ a _ _) (hle _ _ _)
        (.cons (putsStep_split cfg acceptAll rfl) (hle _ _ _)
        (.cons (putsStep_second cfg _ a _ _) (hle _ _ _) (.nil _))))))))

end

lemma filled_run (cfg : CacheConfig) (n : Nat) (hn : n ≤ cfg.maxEntries) :
    ∃ l s a, Filled n s ∧ (∀ t ∈ a, t = .done) ∧ PairedRun cfg ⟨⟨{}, ()⟩, []⟩ l ⟨⟨s, ()⟩, a⟩ := by
  induction n with
  | zero =>
    refine ⟨[], {}, [], ⟨nofun, rfl, nofun⟩, nofun, .nil _⟩
  | succ n ih =>
    obtain ⟨l, s, a, hs, ha, hrun⟩ := ih (le_of_succ_le hn)
    refine ⟨_, _, a ++ [.done], ?_, ?_, hrun.append (serial_put hs hn ha)⟩
    · exact hs.count.commit cfg (lt_succ_self _) (hs.numbered.find_next _ (le_refl _))
    · exact forall_mem_append.2 ⟨ha, forall_mem_singleton.2 rfl⟩

lemma overlap_exceeds (hmax : 1 ≤ cfg.maxEntries) :
    ∃ l Q, PairedRun cfg ⟨⟨{}, ()⟩, []⟩ l Q ∧ Q.world.cache.entries.size = cfg.maxEntries + 1 := by
  obtain ⟨l, s, a, hs, ha, hrun⟩ := filled_run cfg (cfg.maxEntries - 1) (by omega)
  refine ⟨_, _, hrun.append (paired_puts hs (by omega) ha), ?_⟩
  have hfree1 : (counted (counted s)).entries.find (nextId cfg s) = none :=
    hs.numbered.find_next _ (le_refl _)
  have h1 := hs.count.count.commit cfg (lt_succ_of_lt (lt_succ_self _)) hfree1
  have hfree2 : (commit cfg (samplePut.entry (nextId cfg s)) (counted (counted s))).entries.find
      (nextId cfg (counted s)) = none := by
    show (s.entries.put (samplePut.entry (nextId cfg s))).find (nextId cfg (counted s)) = none
    rw [find_put, if_neg]
    · exact hs.numbered.find_next _ (le_succ _)
    · intro e
      exact absurd (makeEntryId_inj e) (Nat.ne_of_lt (Nat.lt_succ_self _))
  have h2 := h1.commit cfg (lt_succ_self _) hfree2
  refine h2.size.trans ?_
  omega

/-- With at most `k` puts in progress, over every vector store and interleaving, the entries stay
within the limit exactly when puts do not overlap. -/
theorem entries_bounded_iff (cfg : CacheConfig) (hmax : 1 ≤ cfg.maxEntries) (k : Nat) :
    (∀ (σ : Type) (V : VectorStore σ) (v : σ) (l : List PutEvent),
      (∀ l', l' <+: l → (exec (putsStep cfg V) ⟨⟨{}, v⟩, []⟩ l').inFlight ≤ k) → ∀ l', l' <+: l →
        (exec (putsStep cfg V) ⟨⟨{}, v⟩, []⟩ l').world.cache.entries.size ≤ cfg.maxEntries) ↔
      k ≤ 1 := by
  constructor
  · intro h
    by_contra hk
    obtain ⟨l, Q, ⟨hexec, halong⟩, hsize⟩ := overlap_exceeds hmax
    have hflight := (along_after_iff (P := fun P : Puts Unit => P.inFlight ≤ 2) l
      ⟨⟨{}, ()⟩, []⟩ (zero_le _)).1 halong
    have hle := h Unit acceptAll () l (fun l' hl' => (hflight l' hl').trans (by omega)) l
      (prefix_refl l)
    rw [hexec, hsize] at hle
    omega
  · intro hk σ V v l hl l' hl'
    have := size_le_of_inFlight V hmax v l (fun l' hl' => (hl l' hl').trans hk) l' hl'
    omega

theorem entries_bounded_one :
    ¬ ∀ (σ : Type) (V : VectorStore σ) (v : σ) (l : List PutEvent),
      (∀ l', l' <+: l → (exec (putsStep (sampleConfig 1) V) ⟨⟨{}, v⟩, []⟩ l').inFlight ≤ 2) →
      ∀ l', l' <+: l →
        (exec (putsStep (sampleConfig 1) V) ⟨⟨{}, v⟩, []⟩ l').world.cache.entries.size ≤ 1 :=
  fun h => absurd ((entries_bounded_iff (sampleConfig 1) (le_refl 1) 2).1 h) (by decide)

/-- two puts in a cache for one entry: both find it empty, and both commit -/
theorem overlap_two_entries :
    (exec (putsStep (sampleConfig 1) acceptAll) ⟨⟨{}, ()⟩, []⟩
      [.arrive samplePut, .arrive samplePut, .step 0, .step 1, .step 0, .step 1, .step 0,
        .step 1]).world.cache.entries.rows.map CacheEntry.id = ["ns_0_1", "ns_0_0"] := by
  decide

end

end AegisGate.Cache
