import Mathlib.Data.List.TakeWhile
import Mathlib.Data.Prod.Lex
import AegisGate.ControlPlane.Store

/-!
# Listing config versions in two stores

`listConfigVersions` of `MemoryPersistentStore` looks for the page token in the list it has filtered
and sorted; that of `SQLitePersistentStore` looks up the row of the token, whatever its status, and
asks for the rows behind its key.

* `SQLitePersistentStore.listConfigVersions`  the statement with its clauses, and the values bound to
  their placeholders;
* `pages`  a caller that asks until a page is empty.

`sqlite3_prepare_v2` is taken to succeed, as it does up to SQLite's number of placeholders (32766).
Neither store takes an empty id.
-/

namespace AegisGate.ControlPlane

open List MemoryPersistentStore

namespace SQLitePersistentStore

inductive Value where
  | text (s : String)
  | int (n : ℤ)
  deriving DecidableEq

/-- what may follow `WHERE 1=1`; SQLite numbers the placeholders from left to right -/
inductive Clause where
  /-- `AND status IN (?,…)` -/
  | statusIn (count : Nat)
  /-- `AND submitted_at >= ?` -/
  | submittedFrom
  /-- `AND (submitted_at < ? OR (submitted_at = ? AND version_id < ?))` -/
  | behind

def Clause.width : Clause → Nat
  | .statusIn count => count
  | .submittedFrom => 1
  | .behind => 3

/-- a clause on a row, with the values from its first placeholder on; one that is not bound is `NULL`
and compares with nothing -/
def Clause.holds (r : ConfigVersionRecord) : Clause → List Value → Bool
  | .statusIn count, bound => .text (configStatusToString r.status) ∈ bound.take count
  | .submittedFrom, .int since :: _ => since ≤ r.submittedAt
  | .behind, .int before :: .int same :: .text id :: _ =>
    r.submittedAt < before ∨ (r.submittedAt = same ∧ r.versionId < id)
  | _, _ => false

def whereHolds (r : ConfigVersionRecord) : List Clause → List Value → Bool
  | [], _ => true
  | c :: cs, bound => c.holds r bound && whereHolds r cs (bound.drop c.width)

/-- the value of `LIMIT ?`, behind those of the clauses -/
def limitOf : List Clause → List Value → Nat
  | [], .int n :: _ => n.toNat
  | [], _ => 0
  | c :: cs, bound => limitOf cs (bound.drop c.width)

variable (q : ConfigVersionQuery) (s : MemoryPersistentStore)

/-- `submitted_at` of the row of the token, `-1` for none -/
def tokSubmitted : ℤ :=
  if q.pageToken = "" then -1
  else ((s.configVersions.find q.pageToken).map (·.submittedAt)).getD (-1)

def hasCursor : Bool := q.pageToken ≠ "" ∧ 0 ≤ tokSubmitted q s

def clauses : List Clause :=
  (if q.statuses = [] then [] else [.statusIn q.statuses.length]) ++
    ((if 0 < q.sinceMillis then [.submittedFrom] else []) ++
      if hasCursor q s then [.behind] else [])

def bindings : List String :=
  q.statuses.map configStatusToString ++ if hasCursor q s then [q.pageToken] else []

def bindingsInt : List ℤ :=
  (if 0 < q.sinceMillis then [q.sinceMillis] else []) ++
    if hasCursor q s then [tokSubmitted q s, tokSubmitted q s] else []

def cap : Nat := if 0 < q.limit then (if 500 < q.limit then 500 else q.limit.toNat) else 50

/-- the second pass, which takes each value from the front of what is left of its vector -/
def bound : List Value :=
  let texts := (bindings q s).drop q.statuses.length
  let since := if 0 < q.sinceMillis then 1 else 0
  let ints := (bindingsInt q s).drop since
  ((bindings q s).take q.statuses.length).map .text ++
    (((bindingsInt q s).take since).map .int ++
      ((if hasCursor q s then (ints.take 2).map .int ++ (texts.take 1).map .text else []) ++
        [.int (cap q)]))

/-- the rows that the `WHERE` clause leaves -/
def selected : List ConfigVersionRecord :=
  s.configVersions.rows.filter (fun r => whereHolds r (clauses q s) (bound q s))

/-- over a table of the same rows -/
def listConfigVersions : List ConfigVersionRecord :=
  ((selected q s).insertionSort (fun a b => ¬ newer b a)).take (limitOf (clauses q s) (bound q s))

/-! ## the statement as a condition on a row -/

variable (r : ConfigVersionRecord)

/-- the clause of the token; a row submitted before 1970 is taken for none -/
def behindToken : Bool :=
  match if q.pageToken = "" then none else s.configVersions.find q.pageToken with
  | none => true
  | some token =>
    if token.submittedAt < 0 then true
    else r.submittedAt < token.submittedAt ∨
      (r.submittedAt = token.submittedAt ∧ r.versionId < q.pageToken)

lemma bound_eq : bound q s = q.statuses.map (fun st => .text (configStatusToString st)) ++
    ((if 0 < q.sinceMillis then [.int q.sinceMillis] else []) ++
      ((if hasCursor q s then
        [.int (tokSubmitted q s), .int (tokSubmitted q s), .text q.pageToken] else []) ++
          [.int (cap q)])) := by
  have hall : take q.statuses.length (q.statuses.map configStatusToString) =
      q.statuses.map configStatusToString := take_of_length_le (length_map _).le
  unfold bound bindings bindingsInt
  split <;> split <;> simp [hall, Function.comp_def]

lemma behindToken_eq : behindToken q s r = (!hasCursor q s ||
    decide (r.submittedAt < tokSubmitted q s ∨
      (r.submittedAt = tokSubmitted q s ∧ r.versionId < q.pageToken))) := by
  unfold behindToken hasCursor tokSubmitted
  by_cases he : q.pageToken = ""
  · simp [he]
  · cases s.configVersions.find q.pageToken with
    | none => simp [he]
    | some t =>
      by_cases hneg : t.submittedAt < 0
      · simp [he, hneg]
      · simp [he, hneg, not_lt.1 hneg]

lemma status_mem_iff (st : ConfigStatus) (l : List ConfigStatus) :
    Value.text (configStatusToString st) ∈ l.map (fun st => .text (configStatusToString st)) ↔
      st ∈ l := by
  refine mem_map_of_injective fun a b h => ?_
  cases a <;> cases b <;> first | rfl | exact absurd h (by decide)

/-- every clause meets its own values, whichever of the clauses before it are there -/
lemma whereHolds_eq : whereHolds r (clauses q s) (bound q s) =
    (ConfigVersionQuery.keeps q r && behindToken q s r) := by
  have hmem := status_mem_iff r.status q.statuses
  have hempty : q.statuses.isEmpty = decide (q.statuses = []) := by cases q.statuses <;> rfl
  have hlate : decide (r.submittedAt < q.sinceMillis) = !decide (q.sinceMillis ≤ r.submittedAt) := by
    rw [← decide_not, decide_eq_decide, not_le]
  rw [bound_eq, behindToken_eq, ConfigVersionQuery.keeps, clauses, hempty, hlate]
  by_cases hst : q.statuses = [] <;> by_cases hsince : 0 < q.sinceMillis <;>
    cases hasCursor q s <;>
      simp [hst, hsince, whereHolds, Clause.holds, Clause.width, hmem, Bool.and_assoc]

lemma limitOf_eq : limitOf (clauses q s) (bound q s) = cap q := by
  rw [bound_eq, clauses]
  by_cases hst : q.statuses = [] <;> by_cases hsince : 0 < q.sinceMillis <;>
    cases hasCursor q s <;> simp [hst, hsince, limitOf, Clause.width]

end SQLitePersistentStore

def pages (list : String → List ConfigVersionRecord) :
    Nat → String → Option (List ConfigVersionRecord)
  | 0, _ => none
  | fuel + 1, token =>
    match (list token).getLast? with
    | none => some []
    | some r => (pages list fuel r.versionId).map (list token ++ ·)

/-! ## the order -/

open SQLitePersistentStore (behindToken selected cap)

def listKey (r : ConfigVersionRecord) : ℤ ×ₗ String := toLex (r.submittedAt, r.versionId)

lemma newer_iff {a b : ConfigVersionRecord} : newer a b ↔ listKey b < listKey a := by
  rw [listKey, listKey, Prod.Lex.toLex_lt_toLex]
  unfold newer
  split
  · next h => simp [Ne.symm h]
  · next h => simp [(not_not.1 h).symm]

lemma not_newer_iff {a b : ConfigVersionRecord} : ¬ newer b a ↔ listKey b ≤ listKey a := by
  rw [newer_iff, not_lt]

instance : Std.Total (fun a b => ¬ newer b a) where
  total a b := by
    rw [not_newer_iff, not_newer_iff]
    exact le_total _ _

instance : IsTrans ConfigVersionRecord (fun a b => ¬ newer b a) where
  trans a b c := by
    simp only [not_newer_iff]
    exact fun hab hbc => hbc.trans hab

section
variable (q : ConfigVersionQuery) (s : MemoryPersistentStore)

/-- the rows a query asks for, in the order of the listing -/
def matching : List ConfigVersionRecord :=
  (s.configVersions.rows.filter (ConfigVersionQuery.keeps q)).insertionSort (fun a b => ¬ newer b a)

lemma mem_matching {r : ConfigVersionRecord} :
    r ∈ matching q s ↔ r ∈ s.configVersions.rows ∧ ConfigVersionQuery.keeps q r :=
  (perm_insertionSort _ _).mem_iff.trans mem_filter

lemma nodup_matching : ((matching q s).map (·.versionId)).Nodup :=
  ((perm_insertionSort _ _).map _).nodup_iff.2
    (s.configVersions.nodup.sublist (filter_sublist.map _))

lemma eq_of_listKey {a b : ConfigVersionRecord} (ha : a ∈ s.configVersions.rows)
    (hb : b ∈ s.configVersions.rows) (h : listKey a = listKey b) : a = b :=
  inj_on_of_nodup_map s.configVersions.nodup ha hb (congrArg Prod.snd (toLex.injective h))

lemma pairwise_matching : (matching q s).Pairwise (fun a b => listKey b < listKey a) := by
  have hids := pairwise_map.1 (nodup_matching q s)
  refine ((pairwise_insertionSort _ _).and hids).imp fun {a b} ⟨hle, hne⟩ => ?_
  exact lt_of_le_of_ne (not_newer_iff.1 hle)
    (fun h => hne (congrArg Prod.snd (toLex.injective h)).symm)

lemma selected_perm : ((matching q s).filter (behindToken q s)).Perm (selected q s) := by
  refine ((perm_insertionSort _ _).filter _).trans (.of_eq ?_)
  rw [filter_filter]
  simp only [Bool.and_comm, selected, SQLitePersistentStore.whereHolds_eq]

lemma sqlite_eq : SQLitePersistentStore.listConfigVersions q s =
    ((matching q s).filter (behindToken q s)).take (cap q) := by
  unfold SQLitePersistentStore.listConfigVersions
  rw [SQLitePersistentStore.limitOf_eq]
  congr 1
  refine Perm.eq_of_pairwise (fun a b ha hb hab hba => ?_) (pairwise_insertionSort _ _)
    ((pairwise_insertionSort _ _).filter _) ?_
  · refine eq_of_listKey s ?_ ?_ (le_antisymm (not_newer_iff.1 hba) (not_newer_iff.1 hab))
    · exact (mem_filter.1 ((perm_insertionSort _ _).mem_iff.1 ha)).1
    · exact ((mem_matching q s).1 (mem_filter.1 hb).1).1
  · exact (perm_insertionSort _ _).trans (selected_perm q s).symm

def memoryCap : Nat := if 0 < q.limit then q.limit.toNat else 50

lemma memory_eq (h : q.pageToken ≠ "") : listConfigVersions q s =
    (((matching q s).dropWhile (·.versionId ≠ q.pageToken)).drop 1).take (memoryCap q) := by
  unfold listConfigVersions
  dsimp only
  rw [if_neg h]
  rfl

end

section
variable {q : ConfigVersionQuery} {s : MemoryPersistentStore} {t : ConfigVersionRecord}
  {a b : List ConfigVersionRecord}

lemma after_token (h : matching q s = a ++ t :: b) :
    ((matching q s).dropWhile (·.versionId ≠ t.versionId)).drop 1 = b := by
  have hids := nodup_matching q s
  rw [h, map_append, map_cons] at hids
  have hfront : ∀ r ∈ a, decide (r.versionId ≠ t.versionId) := fun r hr => by
    simpa using (nodup_append.1 hids).2.2 _ (mem_map_of_mem hr) _ mem_cons_self
  rw [h, dropWhile_append_of_pos hfront, dropWhile_cons_of_neg (by simp)]
  rfl

lemma behind_token (h : matching q s = a ++ t :: b) (hid : t.versionId = q.pageToken)
    (hne : q.pageToken ≠ "") (hpos : 0 ≤ t.submittedAt) :
    (matching q s).filter (behindToken q s) = b := by
  have ht : t ∈ matching q s := h ▸ mem_append_right a mem_cons_self
  have hfind : s.configVersions.find q.pageToken = some t :=
    Table.find_eq_some_iff.2 ⟨((mem_matching q s).1 ht).1, hid⟩
  have hbehind : ∀ r, behindToken q s r ↔ listKey r < listKey t := by
    intro r
    unfold behindToken
    rw [if_neg hne, hfind, listKey, listKey, Prod.Lex.toLex_lt_toLex]
    simp only [if_neg (not_lt.2 hpos), ← hid, decide_eq_true_eq]
  have hord := pairwise_matching q s
  rw [h, pairwise_append, pairwise_cons] at hord
  have hfront : a.filter (behindToken q s) = [] :=
    filter_eq_nil_iff.2 (fun r hr => by
      rw [hbehind]
      exact lt_asymm (hord.2.2 r hr t mem_cons_self))
  have hrest : b.filter (behindToken q s) = b :=
    filter_eq_self.2 fun r hr => (hbehind r).2 (hord.2.1.1 r hr)
  rw [h, filter_append, filter_cons_of_neg (by simp [hbehind]), hfront, hrest, nil_append]

lemma cap_pos (q : ConfigVersionQuery) : 0 < memoryCap q ∧ 0 < cap q := by
  unfold memoryCap cap
  split
  · split <;> omega
  · omega

/-! ## pages -/

lemma pages_complete {list : String → List ConfigVersionRecord} {all : List ConfigVersionRecord}
    {cap : Nat} (hcap : 0 < cap) (hfirst : list "" = all.take cap)
    (hnext : ∀ a t b, all = a ++ t :: b → list t.versionId = b.take cap) {fuel : Nat}
    (hfuel : all.length < fuel) : pages list fuel "" = some all := by
  -- induction on the fuel: what is left when a page has been read is a shorter suffix
  have hall : ∀ fuel token a b, all = a ++ b → list token = b.take cap → b.length < fuel →
      pages list fuel token = some b := by
    intro fuel
    induction fuel with
    | zero => exact fun _ _ _ _ _ hlt => absurd hlt (Nat.not_lt_zero _)
    | succ fuel ih =>
      intro token a b hsplit hlist hlt
      rw [pages, hlist]
      cases hlast : (b.take cap).getLast? with
      | none =>
        have hnil : b = [] := by
          rw [getLast?_eq_none_iff, take_eq_nil_iff] at hlast
          exact hlast.resolve_left (Nat.ne_of_gt hcap)
        rw [hnil]
      | some t =>
        obtain ⟨front, hfront⟩ := getLast?_eq_some_iff.1 hlast
        have hb : b = front ++ t :: b.drop cap := by
          rw [← singleton_append, ← append_assoc, ← hfront, take_append_drop]
        have hrest : (b.drop cap).length < fuel := by
          have hlen := congrArg length hb
          rw [length_append, length_cons] at hlen
          omega
        have hone : all = (a ++ front) ++ t :: b.drop cap := by
          rw [append_assoc, ← hb, hsplit]
        have hrec := ih t.versionId (a ++ front ++ [t]) (b.drop cap)
          (by rw [append_assoc, singleton_append, hone]) (hnext _ _ _ hone) hrest
        show (pages list fuel t.versionId).map _ = some b
        rw [hrec, Option.map_some, take_append_drop]
  exact hall fuel "" [] all rfl hfirst hfuel

/-- asking on with the last id until a page is empty gives, in both stores, the rows that the query
keeps, newest first and each once -/
theorem paging_complete (s : MemoryPersistentStore) (q : ConfigVersionQuery)
    (hids : ∀ r ∈ s.configVersions.rows, r.versionId ≠ "")
    (hsub : ∀ r ∈ s.configVersions.rows, 0 ≤ r.submittedAt) (fuel : Nat)
    (hfuel : s.configVersions.rows.length < fuel) :
    pages (fun token => listConfigVersions { q with pageToken := token } s) fuel "" =
        some (matching q s) ∧
      pages (fun token => SQLitePersistentStore.listConfigVersions { q with pageToken := token } s)
        fuel "" = some (matching q s) ∧
      (matching q s).Pairwise (fun a b => newer a b) ∧ (matching q s).Nodup ∧
      ∀ r, r ∈ matching q s ↔ r ∈ s.configVersions.rows ∧ ConfigVersionQuery.keeps q r := by
  have hlen : (matching q s).length < fuel :=
    lt_of_le_of_lt (((perm_insertionSort _ _).length_eq).trans_le (length_filter_le _ _)) hfuel
  have hrow : ∀ a t b, matching q s = a ++ t :: b → t ∈ s.configVersions.rows := fun a t b h =>
    ((mem_matching q s).1 (h ▸ mem_append_right a mem_cons_self)).1
  refine ⟨pages_complete (cap_pos q).1 rfl (fun a t b h => ?_) hlen,
    pages_complete (cap_pos q).2 ?_ (fun a t b h => ?_) hlen,
    (pairwise_matching q s).imp newer_iff.2, .of_map _ (nodup_matching q s),
    fun r => mem_matching q s⟩
  · rw [memory_eq _ s (hids t (hrow a t b h))]
    exact congrArg (take _) (after_token h)
  · rw [sqlite_eq]
    exact congrArg (take _) (filter_eq_self.2 fun _ _ => rfl)
  · have ht := hrow a t b h
    rw [sqlite_eq]
    exact congrArg (take _)
      (behind_token (q := { q with pageToken := t.versionId }) h rfl (hids t ht) (hsub t ht))

/-- two versions, the later one still pending -/
def twoVersions : MemoryPersistentStore where
  configVersions := ⟨[{ versionId := "v1", status := .approved, submittedAt := 1 },
    { versionId := "v2", submittedAt := 2 }], by decide⟩

theorem paging_twoVersions :
    pages (fun token => listConfigVersions { limit := 1, pageToken := token } twoVersions) 3 "" =
      some (matching { limit := 1 } twoVersions) :=
  (paging_complete twoVersions { limit := 1 } (by decide) (by decide) 3 (by decide)).1

/-- there is no token, or it names a row that the query keeps, submitted since 1970 -/
def Positioned (q : ConfigVersionQuery) (s : MemoryPersistentStore) : Prop :=
  q.pageToken = "" ∨ ∃ t ∈ s.configVersions.rows, t.versionId = q.pageToken ∧
    ConfigVersionQuery.keeps q t ∧ 0 ≤ t.submittedAt

lemma Positioned.memory_eq (h : Positioned q s) :
    listConfigVersions q s = ((matching q s).filter (behindToken q s)).take (memoryCap q) := by
  by_cases hne : q.pageToken = ""
  · have hall : (matching q s).filter (behindToken q s) = matching q s :=
      filter_eq_self.2 (fun r _ => by rw [behindToken, if_pos hne])
    rw [hall]
    unfold listConfigVersions
    dsimp only
    rw [if_pos hne]
    rfl
  · obtain ⟨t, ht, hid, hkeeps, hpos⟩ := h.resolve_left hne
    obtain ⟨a, b, hsplit⟩ := append_of_mem ((mem_matching q s).2 ⟨ht, hkeeps⟩)
    rw [ControlPlane.memory_eq q s hne, behind_token hsplit hid hne hpos, ← hid, after_token hsplit]

/-- memory looks for the token among the rows it keeps and has no cap; SQLite starts at the first row
when the token has none -/
theorem listing_agrees_iff (q : ConfigVersionQuery) (s : MemoryPersistentStore) :
    listConfigVersions q s = SQLitePersistentStore.listConfigVersions q s ↔
      Positioned q s ∧ (q.limit ≤ 500 ∨ (selected q s).length ≤ 500) ∨ selected q s = [] := by
  have hperm := selected_perm q s
  rw [sqlite_eq, ← hperm.length_eq]
  have hnil : selected q s = [] ↔ (matching q s).filter (behindToken q s) = [] :=
    ⟨fun h => (h ▸ hperm).eq_nil, fun h => (h ▸ hperm).symm.eq_nil⟩
  rw [hnil]
  by_cases hp : Positioned q s
  · have hcaps : ∀ n : Nat, min (memoryCap q) n = min (cap q) n ↔ q.limit ≤ 500 ∨ n ≤ 500 := by
      intro n
      unfold memoryCap cap
      split
      · split <;> omega
      · omega
    rw [hp.memory_eq, take_eq_take_iff, hcaps]
    refine ⟨fun h => .inl ⟨hp, h⟩, fun h => h.elim And.right fun h => .inr ?_⟩
    rw [h]
    exact Nat.zero_le _
  · have hne : q.pageToken ≠ "" := fun h => hp (.inl h)
    rw [memory_eq q s hne]
    by_cases ht : ∃ t ∈ matching q s, t.versionId = q.pageToken
    · obtain ⟨t, ht, hid⟩ := ht
      obtain ⟨a, b, hsplit⟩ := append_of_mem ht
      obtain ⟨hrow, hkeeps⟩ := (mem_matching q s).1 ht
      have hneg : t.submittedAt < 0 := lt_of_not_ge fun h => hp (.inr ⟨t, hrow, hid, hkeeps, h⟩)
      have hall : (matching q s).filter (behindToken q s) = matching q s :=
        filter_eq_self.2 (fun r _ => by
          rw [behindToken, if_neg hne, Table.find_eq_some_iff.2 ⟨hrow, hid⟩]
          exact if_pos hneg)
      rw [hall, ← hid, after_token hsplit]
      refine iff_of_false (fun heq => ?_) ?_
      · -- the first row of all is not behind the token
        have hnodup := Nodup.of_map _ (nodup_matching q s)
        obtain ⟨x, rest, hx⟩ := exists_cons_of_ne_nil (ne_nil_of_mem ht)
        have hfront : x ∈ a ++ [t] := by
          rw [hx] at hsplit
          cases a <;> cases hsplit <;> simp
        have hback : x ∈ b := by
          refine mem_of_mem_take (i := memoryCap q) ?_
          obtain ⟨n, hn⟩ := Nat.exists_eq_succ_of_ne_zero (cap_pos q).2.ne'
          rw [heq, hx, hn]
          exact mem_cons_self
        rw [hsplit, ← singleton_append, ← append_assoc] at hnodup
        exact disjoint_of_nodup_append hnodup hfront hback
      · exact not_or.2 ⟨fun h => hp h.1, ne_nil_of_mem ht⟩
    · have hdrop : (matching q s).dropWhile (·.versionId ≠ q.pageToken) = [] :=
        dropWhile_eq_nil_iff.2 (fun r hr => by simpa using fun hid => ht ⟨r, hr, hid⟩)
      rw [hdrop, drop_nil, take_nil, eq_comm, take_eq_nil_iff]
      exact ⟨fun h => .inr (h.resolve_left (cap_pos q).2.ne'),
        fun h => .inr (h.resolve_left fun h => hp h.1)⟩

/-- the version of the token is not approved: no page in memory, one version in SQLite -/
theorem stale_token_ends_listing :
    (listConfigVersions { statuses := [.approved], pageToken := "v2" } twoVersions).map
        (·.versionId) = [] ∧
      (SQLitePersistentStore.listConfigVersions { statuses := [.approved], pageToken := "v2" }
        twoVersions).map (·.versionId) = ["v1"] := by
  decide

end

end AegisGate.ControlPlane
