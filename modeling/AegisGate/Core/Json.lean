import Mathlib.Data.Rat.Defs
import Mathlib.Data.String.Basic

/-!
# JSON values, as the code reads them

The gateway keeps request bodies, licenses, proposals and workflows as `nlohmann::json`.  Here is
the value type with the accessors the modelled functions use, and the errors these throw:

* `contains`, `find?`  never throw;
* `valueStr`, `valueInt`, `valueDouble`, `valueBool`
  the `value(key, default)` family: `306` on a non-object, `302` when
  the member is there with another type;
* `setKey`  `operator[](key) = v`: `null` becomes an object, anything that is
  neither null nor an object is `305`.

Parsing and printing belong to the library and are not modelled: where the code prints, a
`dump` parameter is taken.  The library keeps the members of an object sorted by key (`Sorted`), and
`canonicalise`, of which the code has several copies, changes no such value (`Sorted.canonicalise_eq`).
-/

namespace AegisGate

/-- a JSON value; the members of an object are kept in a list, first match wins -/
inductive Json where
  | null
  | bool (b : Bool)
  | int (n : Int)
  | float (q : ℚ)
  | str (s : String)
  | arr (l : List Json)
  | obj (l : List (String × Json))
  deriving Inhabited

namespace Json

section
variable {k k' : String} {j' v j : Json}

/-- `nlohmann::json::type_error`, by its number -/
structure TypeError where
  id : Nat
  deriving DecidableEq, Repr

lemma bind_eq_ok {ε α β : Type} {x : Except ε α} {f : α → Except ε β} {r : β}
    (h : (x >>= f) = .ok r) : ∃ a, x = .ok a ∧ f a = .ok r := by
  cases x with
  | error e => cases h
  | ok a => exact ⟨a, rfl, h⟩

def isNull : Json → Bool
  | null => true
  | _ => false

def isString : Json → Bool
  | str _ => true
  | _ => false

def isNumberInteger : Json → Bool
  | int _ => true
  | _ => false

def isObject : Json → Bool
  | obj _ => true
  | _ => false

def find? (j : Json) (k : String) : Option Json :=
  match j with
  | obj l => l.lookup k
  | _ => none

def contains (j : Json) (k : String) : Bool := (j.find? k).isSome

def elems : Json → List Json
  | arr l => l
  | obj l => l.map Prod.snd
  | null => []
  | j => [j]

section
variable (j : Json)

def valueStr (k d : String) : Except TypeError String :=
  match j with
  | obj l =>
    match l.lookup k with
    | none => .ok d
    | some (str s) => .ok s
    | some _ => .error ⟨302⟩
  | _ => .error ⟨306⟩

variable (k : String)

def valueInt (d : Int) : Except TypeError Int :=
  match j with
  | obj l =>
    match l.lookup k with
    | none => .ok d
    | some (int n) => .ok n
    | some (float q) => .ok (if 0 ≤ q then q.floor else -(-q).floor)
    | some (bool b) => .ok (if b then 1 else 0)
    | some _ => .error ⟨302⟩
  | _ => .error ⟨306⟩

/-- a boolean is no number here, unlike in `valueInt` -/
def valueDouble (d : ℚ) : Except TypeError ℚ :=
  match j with
  | obj l =>
    match l.lookup k with
    | none => .ok d
    | some (int n) => .ok n
    | some (float q) => .ok q
    | some _ => .error ⟨302⟩
  | _ => .error ⟨306⟩

def valueBool (d : Bool) : Except TypeError Bool :=
  match j with
  | obj l =>
    match l.lookup k with
    | none => .ok d
    | some (bool b) => .ok b
    | some _ => .error ⟨302⟩
  | _ => .error ⟨306⟩

def setMember (k : String) (v : Json) : List (String × Json) → List (String × Json)
  | [] => [(k, v)]
  | (k', v') :: l => if k' = k then (k, v) :: l else (k', v') :: setMember k v l

def setKey (v : Json) : Except TypeError Json :=
  match j with
  | null => .ok (obj [(k, v)])
  | obj l => .ok (obj (setMember k v l))
  | _ => .error ⟨305⟩

/-- assignment by key throws exactly on values that are neither null nor objects -/
lemma setKey_isOk (v : Json) : (j.setKey k v).isOk = (j.isNull || j.isObject) := by
  cases j <;> rfl

end

lemma setKey_isObject (h : j.setKey k v = .ok j') : j'.isObject := by
  cases j with
  | null => cases h; rfl
  | obj l => cases h; rfl
  | bool b => cases h
  | int n => cases h
  | float q => cases h
  | str s => cases h
  | arr l => cases h

lemma lookup_setMember_ne (hne : k' ≠ k) (v : Json) (l : List (String × Json)) :
    (setMember k v l).lookup k' = l.lookup k' := by
  have hb : (k' == k) = false := beq_false_of_ne hne
  induction l with
  | nil => simp [setMember, List.lookup_cons, hb]
  | cons kv l ih =>
    obtain ⟨k0, v0⟩ := kv
    rw [setMember]
    split
    · rename_i e
      subst e
      simp [List.lookup_cons, hb]
    · rw [List.lookup_cons, List.lookup_cons, ih]

lemma find?_setKey_ne (hne : k' ≠ k) (h : j.setKey k v = .ok j') : j'.find? k' = j.find? k' := by
  cases j with
  | null => cases h; exact lookup_setMember_ne hne v []
  | obj l => cases h; exact lookup_setMember_ne hne v l
  | bool b => cases h
  | int n => cases h
  | float q => cases h
  | str s => cases h
  | arr l => cases h

end

/-! ## objects as sorted maps -/

/-- `std::map::emplace`: the first value of a key stays -/
def emplaceMember (k : String) (v : Json) : List (String × Json) → List (String × Json)
  | [] => [(k, v)]
  | (k', v') :: l =>
    if k = k' then (k', v') :: l
    else if k < k' then (k, v) :: (k', v') :: l
    else (k', v') :: emplaceMember k v l

mutual

def canonicalise : Json → Json
  | .obj l => .obj (canonicaliseMembers l [])
  | .arr l => .arr (canonicaliseElems l)
  | j => j

def canonicaliseElems : List Json → List Json
  | [] => []
  | j :: l => canonicalise j :: canonicaliseElems l

def canonicaliseMembers : List (String × Json) → List (String × Json) → List (String × Json)
  | [], sorted => sorted
  | (k, j) :: l, sorted => canonicaliseMembers l (emplaceMember k (canonicalise j) sorted)

end

/-- a value as the library has it: the keys of every object ascend -/
inductive Sorted : Json → Prop
  | null : Sorted .null
  | bool (b : Bool) : Sorted (.bool b)
  | int (n : Int) : Sorted (.int n)
  | float (q : ℚ) : Sorted (.float q)
  | str (s : String) : Sorted (.str s)
  | arr {l : List Json} (elems : ∀ j ∈ l, Sorted j) : Sorted (.arr l)
  | obj {l : List (String × Json)} (keys : (l.map Prod.fst).Pairwise (· < ·))
    (values : ∀ m ∈ l, Sorted m.2) : Sorted (.obj l)

lemma emplaceMember_last {k : String} {v : Json} {sorted : List (String × Json)}
    (h : ∀ m ∈ sorted, m.1 < k) : emplaceMember k v sorted = sorted ++ [(k, v)] := by
  induction sorted with
  | nil => rfl
  | cons m sorted ih =>
    have hlt := h m List.mem_cons_self
    rw [emplaceMember, if_neg hlt.ne', if_neg hlt.asymm,
      ih fun m' hm' => h m' (List.mem_cons_of_mem m hm')]
    rfl

lemma canonicaliseMembers_sorted (l : List (String × Json)) : ∀ sorted : List (String × Json),
    (sorted ++ l).Pairwise (·.1 < ·.1) → (∀ m ∈ l, canonicalise m.2 = m.2) →
      canonicaliseMembers l sorted = sorted ++ l := by
  induction l with
  | nil => intro sorted _ _; rw [canonicaliseMembers, List.append_nil]
  | cons m l ih =>
    intro sorted hkeys hvalues
    have hlast : ∀ m' ∈ sorted, m'.1 < m.1 := fun m' hm' =>
      (List.pairwise_append.1 hkeys).2.2 m' hm' m List.mem_cons_self
    rw [canonicaliseMembers, hvalues m List.mem_cons_self, emplaceMember_last hlast,
      ih _ (by simpa using hkeys) fun m' hm' => hvalues m' (List.mem_cons_of_mem m hm'),
      List.append_assoc]
    rfl

lemma canonicaliseElems_eq {l : List Json} (h : ∀ j ∈ l, canonicalise j = j) :
    canonicaliseElems l = l := by
  induction l with
  | nil => rfl
  | cons j l ih =>
    rw [canonicaliseElems, h j List.mem_cons_self,
      ih fun j' hj' => h j' (List.mem_cons_of_mem j hj')]

theorem Sorted.canonicalise_eq {j : Json} (h : j.Sorted) : j.canonicalise = j := by
  induction h with
  | arr _ ih => rw [canonicalise, canonicaliseElems_eq ih]
  | obj keys _ ih =>
    rw [canonicalise, canonicaliseMembers_sorted _ [] (List.pairwise_map.1 keys) ih, List.nil_append]
  | _ => rfl

lemma Sorted.find? {j v : Json} {k : String} (h : j.Sorted) (hk : j.find? k = some v) : v.Sorted := by
  cases h with
  | obj _ values =>
    obtain ⟨l1, l2, rfl, -⟩ := List.lookup_eq_some_iff.1 hk
    exact values (k, v) (by simp)
  | _ => cases hk

end Json

end AegisGate
