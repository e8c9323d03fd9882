import Mathlib.Algebra.BigOperators.Group.List.Basic
import Mathlib.Algebra.GroupWithZero.Nat
import Mathlib.Data.List.TakeWhile
import AegisGate.Cluster.RedisBreaker

/-!
# The commands as texts

The functions of the circuit breaker put most of their commands together as texts and hand them to
`RedisCacheStore::executeRaw`, that is to `redisCommand` as its format.  The client takes the format
apart at spaces, and a per cent sign begins a conversion, for which there is no argument here.

* `Command.raw`  the text of a command;
* `Command.argv`  the arguments that are meant;
* `formatArgs`  what the client makes of a format;
* `Proc.Makes`  a program sends a command, after some replies.

Every command arrives as it is meant exactly when the name of the model has no space, no per cent sign
and no NUL in it (`raw_commands_iff`).  A character stands for a byte.
-/

namespace Proc

def Makes {C : Type} {R : C → Type} {α : Type} (c : C) : Proc C R α → Prop
  | .ret _ => False
  | .call c' k => c' = c ∨ ∃ r, Makes c (k r)

lemma makes_bind {C : Type} {R : C → Type} {α β : Type} {c : C} {p : Proc C R α}
    {f : α → Proc C R β} (h : Makes c (p >>= f)) : Makes c p ∨ ∃ a, Makes c (f a) := by
  induction p with
  | ret a => exact .inr ⟨a, h⟩
  | call c' k ih =>
    rcases h with h | ⟨r, h⟩
    · exact .inl (.inl h)
    · rcases ih r h with h | h
      · exact .inl (.inr ⟨r, h⟩)
      · exact .inr h

lemma makes_op {C : Type} {R : C → Type} {c c' : C} (h : Makes c (op c' : Proc C R (R c'))) :
    c' = c :=
  h.resolve_right fun ⟨_, hret⟩ => hret

end Proc

namespace AegisGate.Cluster

open List Proc

def CircuitField.name : CircuitField → String
  | .state => "state"
  | .failureCount => "failure_count"
  | .halfOpenCalls => "half_open_calls"
  | .lastFailureMs => "last_failure_ms"

/-- the text for `executeRaw`; the script is sent with its arguments apart, and the clock is local -/
def Command.raw : Command → Option String
  | .hget key field => some ("HGET " ++ key ++ " " ++ field.name)
  | .hset key field value => some ("HSET " ++ key ++ " " ++ field.name ++ " " ++ toString value)
  | .hincrby key field increment =>
    some ("HINCRBY " ++ key ++ " " ++ field.name ++ " " ++ toString increment)
  | .del key => some ("DEL " ++ key)
  | .expire key seconds => some ("EXPIRE " ++ key ++ " " ++ toString seconds)
  | .evalFailure _ _ _ _ => none
  | .nowMs => none

def Command.argv : Command → List String
  | .hget key field => ["HGET", key, field.name]
  | .hset key field value => ["HSET", key, field.name, toString value]
  | .hincrby key field increment => ["HINCRBY", key, field.name, toString increment]
  | .del key => ["DEL", key]
  | .expire key seconds => ["EXPIRE", key, toString seconds]
  | .evalFailure _ _ _ _ => []
  | .nowMs => []

/-- `redisvFormatCommand`: `cur` is the argument so far, `touched` says that there is one; no result
when a conversion asks for an argument or is unknown -/
def formatArgs : List Char → List Char → Bool → Option (List (List Char))
  | [], cur, touched => some (if touched then [cur] else [])
  | c :: rest, cur, touched =>
    if c = '%' then
      match rest with
      | [] => formatArgs [] (cur ++ [c]) true
      | d :: rest => if d = '%' then formatArgs rest (cur ++ [d]) true else none
    else if c = ' ' then
      if touched then (formatArgs rest [] false).map (cur :: ·) else formatArgs rest cur touched
    else formatArgs rest (cur ++ [c]) true

/-- `c_str()`: the text up to the first NUL -/
def cStr (text : List Char) : List Char := text.takeWhile (· ≠ '\x00')

/-- the arguments that Redis receives for a text given to `executeRaw` -/
def executeRaw (text : String) : Option (List String) :=
  (formatArgs (cStr text.toList) [] false).map (List.map String.ofList)

/-! ## words -/

def Plain (w : List Char) : Prop := ∀ c ∈ w, c ≠ ' ' ∧ c ≠ '%' ∧ c ≠ '\x00'

instance (w : List Char) : Decidable (Plain w) :=
  List.decidableBAll (fun c => c ≠ ' ' ∧ c ≠ '%' ∧ c ≠ '\x00') w

lemma formatArgs_char {c : Char} (hpercent : c ≠ '%') (hspace : c ≠ ' ') (rest cur : List Char)
    (touched : Bool) : formatArgs (c :: rest) cur touched = formatArgs rest (cur ++ [c]) true := by
  cases rest <;> simp [formatArgs, hpercent, hspace]

lemma formatArgs_space (rest cur : List Char) :
    formatArgs (' ' :: rest) cur true = (formatArgs rest [] false).map (cur :: ·) := by
  cases rest <;> simp [formatArgs]

lemma formatArgs_word {w : List Char} (hw : Plain w) : ∀ (rest cur : List Char) (touched : Bool),
    w ≠ [] → formatArgs (w ++ rest) cur touched = formatArgs rest (cur ++ w) true := by
  induction w with
  | nil => intro rest cur touched hne; exact absurd rfl hne
  | cons c w ih =>
    intro rest cur touched _
    obtain ⟨hspace, hpercent, -⟩ := hw c mem_cons_self
    rw [cons_append, formatArgs_char hpercent hspace]
    by_cases hnil : w = []
    · subst hnil
      rfl
    · rw [ih (fun d hd => hw d (mem_cons_of_mem c hd)) rest _ _ hnil, append_assoc]
      rfl

def line : List (List Char) → List Char
  | [] => []
  | [w] => w
  | w :: v :: ws => w ++ ' ' :: line (v :: ws)

lemma formatArgs_line (ws : List (List Char)) (h : ∀ w ∈ ws, w ≠ [] ∧ Plain w) :
    formatArgs (line ws) [] false = some ws := by
  induction ws with
  | nil => rfl
  | cons w ws ih =>
    obtain ⟨hne, hplain⟩ := h w mem_cons_self
    have ih := ih fun v hv => h v (mem_cons_of_mem w hv)
    cases ws with
    | nil =>
      have hword := formatArgs_word hplain [] [] false hne
      rw [append_nil, nil_append] at hword
      exact hword
    | cons v ws =>
      rw [line, formatArgs_word hplain _ _ _ hne, formatArgs_space, ih]
      rfl

lemma mem_line {ws : List (List Char)} {c : Char} (h : c ∈ line ws) :
    c = ' ' ∨ ∃ w ∈ ws, c ∈ w := by
  induction ws with
  | nil => cases h
  | cons w ws ih =>
    cases ws with
    | nil => exact .inr ⟨w, mem_cons_self, h⟩
    | cons v ws =>
      rw [line, mem_append, mem_cons] at h
      rcases h with h | rfl | h
      · exact .inr ⟨w, mem_cons_self, h⟩
      · exact .inl rfl
      · rcases ih h with h | ⟨u, hu, hc⟩
        · exact .inl h
        · exact .inr ⟨u, mem_cons_of_mem w hu, hc⟩

lemma formatArgs_cStr_line (ws : List (List Char)) (h : ∀ w ∈ ws, w ≠ [] ∧ Plain w) :
    formatArgs (cStr (line ws)) [] false = some ws := by
  have hwhole : cStr (line ws) = line ws := by
    refine takeWhile_eq_self_iff.2 fun c hc => decide_eq_true ?_
    rcases mem_line hc with rfl | ⟨w, hw, hc⟩
    · decide
    · exact ((h w hw).2 c hc).2.2
  rw [hwhole, formatArgs_line ws h]

/-! ## what is lost -/

/-- a conversion that is not the last character of the text -/
def Converts : List Char → Prop
  | [] => False
  | [_] => False
  | c :: d :: rest => c = '%' ∨ Converts (d :: rest)

lemma converts_of_mem {x y : List Char} (hx : '%' ∈ x) (hy : y ≠ []) : Converts (x ++ y) := by
  induction x with
  | nil => cases hx
  | cons c x ih =>
    obtain ⟨d, rest, hrest⟩ := exists_cons_of_ne_nil
      (append_ne_nil_of_right_ne_nil x hy)
    rw [cons_append, hrest, Converts]
    rcases mem_cons.1 hx with hc | hx
    · exact .inl hc.symm
    · exact .inr (hrest ▸ ih hx)

lemma Converts.tail {c : Char} {rest : List Char} (hc : c ≠ '%') (h : Converts (c :: rest)) :
    Converts rest := by
  cases rest with
  | nil => cases h
  | cons d rest => exact h.resolve_left hc

variable (t : List Char)

def dense : ℕ := t.countP (· ≠ ' ')

lemma dense_cons (c : Char) (t : List Char) :
    dense (c :: t) = dense t + if c = ' ' then 0 else 1 := by
  unfold dense
  by_cases h : c = ' ' <;> simp [h]

lemma dense_append (x y : List Char) : dense (x ++ y) = dense x + dense y := countP_append

lemma dense_le : dense t ≤ t.length := countP_le_length

lemma length_formatArgs (cur : List Char) (touched : Bool) :
    ∀ ws : List (List Char), formatArgs t cur touched = some ws →
      (ws.map List.length).sum ≤ cur.length + dense t ∧
        (Converts t → (ws.map List.length).sum < cur.length + dense t) := by
  fun_induction formatArgs t cur touched with
  | case1 cur touched =>
    intro ws h
    cases h
    refine ⟨?_, nofun⟩
    split <;> simp [dense]
  | case2 cur touched ih =>
    intro ws h
    have hle := (ih ws h).1
    simp only [length_append, length_singleton] at hle
    exact ⟨by rw [dense_cons]; simp; omega, nofun⟩
  | case3 cur touched rest ih =>
    intro ws h
    have hle := (ih ws h).1
    simp only [length_append, length_singleton] at hle
    rw [dense_cons, dense_cons, if_neg (by decide)]
    exact ⟨by omega, fun _ => by omega⟩
  | case4 cur touched d rest hd => nofun
  | case5 rest cur hne ih =>
    intro ws h
    obtain ⟨vs, hvs, rfl⟩ := Option.map_eq_some_iff.1 h
    obtain ⟨hle, hlt⟩ := ih vs hvs
    rw [length_nil] at hle hlt
    rw [dense_cons, if_pos rfl, map_cons, sum_cons]
    refine ⟨by omega, fun hconv => ?_⟩
    have hlt := hlt (hconv.tail hne)
    omega
  | case6 rest cur touched htouched hne ih =>
    intro ws h
    obtain ⟨hle, hlt⟩ := ih ws h
    exact ⟨hle, fun hconv => hlt (hconv.tail hne)⟩
  | case7 c rest cur touched hpercent hspace ih =>
    intro ws h
    obtain ⟨hle, hlt⟩ := ih ws h
    simp only [length_append, length_singleton] at hle hlt
    rw [dense_cons, if_neg hspace]
    refine ⟨by omega, fun hconv => ?_⟩
    have hlt := hlt (hconv.tail hpercent)
    omega

lemma dense_cStr_le : dense (cStr t) ≤ dense t :=
  (takeWhile_sublist _).countP_le

lemma dense_cStr_lt {t : List Char} (h : '\x00' ∈ t) : dense (cStr t) < dense t := by
  induction t with
  | nil => cases h
  | cons c t ih =>
    by_cases hc : c = '\x00'
    · subst hc
      rw [dense_cons, if_neg (by decide)]
      exact Nat.succ_pos _
    · have hmem : '\x00' ∈ t := (mem_cons.1 h).resolve_left (Ne.symm hc)
      have hcut : cStr (c :: t) = c :: cStr t := by simp [cStr, hc]
      rw [hcut, dense_cons, dense_cons]
      have hlt := ih hmem
      omega

lemma plain_of_formatArgs {before key after : List Char} (hb : dense before = before.length)
    (ha : dense after = after.length) {ws : List (List Char)}
    (h : formatArgs (cStr (before ++ ' ' :: (key ++ ' ' :: after))) [] false = some ws)
    (hws : ws = [before, key, after]) : Plain key := by
  have htext : dense (before ++ ' ' :: (key ++ ' ' :: after)) =
      before.length + dense key + after.length := by
    rw [dense_append, dense_cons, dense_append, dense_cons, hb, ha, if_pos rfl]
    omega
  have hsum : (ws.map List.length).sum = before.length + key.length + after.length := by
    rw [hws]
    simp only [map_cons, map_nil, sum_cons, sum_nil]
    omega
  obtain ⟨hle, hlt⟩ := length_formatArgs _ _ _ ws h
  rw [length_nil, Nat.zero_add] at hle hlt
  have hcut := dense_cStr_le (before ++ ' ' :: (key ++ ' ' :: after))
  have hkey := dense_le key
  have hnul : '\x00' ∉ before ++ ' ' :: (key ++ ' ' :: after) := by
    intro hmem
    have hless := dense_cStr_lt hmem
    omega
  intro c hc
  refine ⟨?_, ?_, ?_⟩
  · rintro rfl
    have hspace : dense key ≠ key.length := fun hall =>
      absurd (countP_eq_length.1 hall ' ' hc) (by decide)
    omega
  · rintro rfl
    have hwhole : cStr (before ++ ' ' :: (key ++ ' ' :: after)) =
        (before ++ ' ' :: key) ++ ' ' :: after := by
      have hself : cStr (before ++ ' ' :: (key ++ ' ' :: after)) =
          before ++ ' ' :: (key ++ ' ' :: after) :=
        takeWhile_eq_self_iff.2 fun d hd => decide_eq_true fun e => hnul (e ▸ hd)
      rw [hself, append_assoc, cons_append]
    have hconv := converts_of_mem (x := before ++ ' ' :: key) (y := ' ' :: after)
      (mem_append_right _ (mem_cons_of_mem _ hc)) (cons_ne_nil _ _)
    rw [← hwhole] at hconv
    have hless := hlt hconv
    omega
  · rintro rfl
    exact hnul (by simp [hc])

/-! ## the commands of the circuit breaker -/

/-- a command that one of the three operations on the circuit of a model sends -/
def Sends (model : String) (c : Command) : Prop :=
  ∃ failureThreshold resetTimeoutS halfOpenMax : Int,
    Makes c (cbAllowRequest model failureThreshold resetTimeoutS halfOpenMax) ∨
      Makes c (cbRecordSuccess model) ∨ Makes c (cbRecordFailure model failureThreshold)

def textCommands (key : String) : List Command :=
  [.hget key .state, .hget key .failureCount, .hget key .lastFailureMs, .hget key .halfOpenCalls,
    .hset key .state 2, .hincrby key .halfOpenCalls 1, .expire key 3600, .del key]

section
variable {model : String} {c : Command}

lemma makes_send {c' : Command} (h : Makes c (send c')) : c' = c := by
  rcases makes_bind h with h | ⟨_, h⟩
  · exact makes_op h
  · cases h

lemma makes_cbGetState {ft rt : Int} (h : Makes c (cbGetState model ft rt)) :
    c = .nowMs ∨ c ∈ textCommands (circuitKey model) := by
  rcases makes_bind h with h | ⟨state, h⟩
  · rw [← makes_op h]
    exact .inr (by simp [textCommands])
  cases state with
  | none => cases h
  | some state =>
    rcases makes_bind h with h | ⟨count, h⟩
    · rw [← makes_op h]
      exact .inr (by simp [textCommands])
    rcases makes_bind h with h | ⟨last, h⟩
    · rw [← makes_op h]
      exact .inr (by simp [textCommands])
    rcases makes_bind h with h | ⟨now, h⟩
    · exact .inl (makes_op h).symm
    · cases h

lemma makes_cbAllowRequest {ft rt hm : Int} (h : Makes c (cbAllowRequest model ft rt hm)) :
    c = .nowMs ∨ c ∈ textCommands (circuitKey model) := by
  rcases makes_bind h with h | ⟨state, h⟩
  · exact makes_cbGetState h
  cases state with
  | closed | «open» => cases h
  | halfOpen =>
    right
    rcases makes_bind h with h | ⟨calls, h⟩
    · rw [← makes_op h]
      simp [textCommands]
    by_cases hleft : calls.getD 0 < hm
    · rw [if_pos hleft] at h
      rcases makes_bind h with h | ⟨_, h⟩
      · simp [← makes_send h, textCommands]
      rcases makes_bind h with h | ⟨_, h⟩
      · simp [← makes_send h, textCommands]
      rcases makes_bind h with h | ⟨_, h⟩
      · simp [← makes_send h, textCommands]
      cases h
    · rw [if_neg hleft] at h
      cases h

lemma sends_text (h : Sends model c) : c.raw = none ∨ c ∈ textCommands (circuitKey model) := by
  obtain ⟨ft, rt, hm, h | h | h⟩ := h
  · rcases makes_cbAllowRequest h with rfl | h
    · exact .inl rfl
    · exact .inr h
  · right
    simp [← makes_send h, textCommands]
  · left
    rcases makes_bind h with h | ⟨now, h⟩
    · rw [← makes_op h]
      rfl
    · rw [← makes_send h]
      rfl

end

lemma executeRaw_line {text : String} {ws : List String}
    (ht : text.toList = line (ws.map String.toList)) (h : ∀ w ∈ ws, w.toList ≠ [] ∧ Plain w.toList) :
    executeRaw text = some ws := by
  unfold executeRaw
  rw [ht, formatArgs_cStr_line]
  · simp [Function.comp_def]
  · intro w hw
    obtain ⟨v, hv, rfl⟩ := mem_map.1 hw
    exact h v hv

lemma plain_circuitKey (model : String) : Plain (circuitKey model).toList ↔ Plain model.toList := by
  unfold circuitKey Plain
  rw [String.toList_append, String.toList_append]
  constructor
  · intro h c hc
    exact h c (mem_append_right _ (mem_append_right _ hc))
  · intro h c hc
    have hprefixes : Plain kNamespacePrefix.toList ∧ Plain kCircuitPrefix.toList := by decide
    rcases mem_append.1 hc with hc | hc
    · exact hprefixes.1 c hc
    rcases mem_append.1 hc with hc | hc
    · exact hprefixes.2 c hc
    · exact h c hc

/-- every command of the circuit breaker reaches Redis as meant exactly when the model's name has no
space, per cent sign or NUL -/
theorem raw_commands_iff (model : String) :
    (∀ (c : Command) (text : String), Sends model c → c.raw = some text →
      executeRaw text = some c.argv) ↔ Plain model.toList := by
  constructor
  · intro h
    have hsends : Sends model (.hget (circuitKey model) .state) := ⟨0, 0, 0, .inl (.inl rfl)⟩
    obtain ⟨ws, hws, hargs⟩ := Option.map_eq_some_iff.1 (h _ _ hsends rfl)
    have hwords : ws = ["HGET".toList, (circuitKey model).toList, "state".toList] := by
      have hback := congrArg (List.map String.toList) hargs
      simpa [Command.argv, CircuitField.name, Function.comp_def] using hback
    refine (plain_circuitKey model).1 (plain_of_formatArgs (by decide) (by decide) ?_ hwords)
    rw [← hws]
    simp [String.toList_append, CircuitField.name]
  · intro h c text hc ht
    have hkey := (plain_circuitKey model).2 h
    rcases sends_text hc with hnone | hmem
    · rw [hnone] at ht
      cases ht
    · have hne : (circuitKey model).toList ≠ [] := by simp [circuitKey, kNamespacePrefix]
      simp only [textCommands, mem_cons, not_mem_nil, or_false] at hmem
      rcases hmem with rfl | rfl | rfl | rfl | rfl | rfl | rfl | rfl
      all_goals
        obtain rfl := Option.some.inj ht
        refine executeRaw_line (by simp [Command.argv, line, String.toList_append]) ?_
        exact forall_mem_cons.2
          ⟨by decide, forall_mem_cons.2 ⟨⟨hne, hkey⟩, by decide +kernel⟩⟩

/-- with a space in the name, a success in one model deletes another's circuit: its `DEL` names the
key of the first half of the name, and a second key -/
theorem space_names_two_keys :
    Sends "gpt 4" (.del (circuitKey "gpt 4")) ∧
      Command.raw (.del (circuitKey "gpt 4")) = some "DEL aegisgate:aegisgate:cb:gpt 4" ∧
      executeRaw "DEL aegisgate:aegisgate:cb:gpt 4" = some ["DEL", circuitKey "gpt", "4"] ∧
      executeRaw "DEL aegisgate:aegisgate:cb:gpt 4" ≠
        some (Command.argv (.del (circuitKey "gpt 4"))) :=
  ⟨⟨0, 0, 0, .inr (.inl (.inl rfl))⟩, rfl, by decide +kernel, by decide +kernel⟩

end AegisGate.Cluster
