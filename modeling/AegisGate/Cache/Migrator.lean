import AegisGate.Lib.Bytes
import Mathlib.Data.List.Perm.Basic
import Mathlib.Algebra.BigOperators.Group.List.Basic
import Mathlib.Algebra.Order.BigOperators.Group.List
import Mathlib.Data.Vector.Defs

/-!
# Snapshots of the cache

`CacheMigrator` of `src/src/cache/cache_migrator.cpp`: `dump` writes the entries of a vector store to
a file, `restore` reads a file and replays its entries into a store.

* header  the magic, the format version, the dimension and the number of entries, the last two
  patched in after the entries have been visited;
* entry  the length of the vector in bytes, its words, the length of the payload, the payload: a
  JSON object with the partition and the id, escaped by `jsonEscape`;
* trailer  the digest of everything before it.

A partition, an id and a file are lists of bytes, a `float` is its 32 bits.  The digest is a
parameter; opening, reading and writing the file do not fail.

The reader does not undo the escaper: `extractField` knows the seven short escapes and takes the
character after any other backslash as it stands, so a control byte written as a `\u` escape comes
back as five characters.  `restore_dump_iff` says which collections survive.
-/

namespace AegisGate.Cache

open Bytes
open List hiding Vector

structure SnapshotEntry where
  (partition id : List UInt8)
  vec : List UInt32
  deriving Repr, DecidableEq

def ascii (s : String) : List UInt8 := s.toList.map Char.toUInt8

def quote : UInt8 := 0x22
def backslash : UInt8 := 0x5c

/-! ## writing -/

def writeU32LE (v : Nat) : List UInt8 := le 4 v
def writeU64LE (v : Nat) : List UInt8 := le 8 v

def escapeByte (c : UInt8) : List UInt8 :=
  if c = quote then ascii "\\\""
  else if c = backslash then ascii "\\\\"
  else if c = 0x0a then ascii "\\n"
  else if c = 0x0d then ascii "\\r"
  else if c = 0x09 then ascii "\\t"
  else if c = 0x08 then ascii "\\b"
  else if c = 0x0c then ascii "\\f"
  else if c < 0x20 then
    ascii "\\u00" ++ [hexDigit (c.toNat / 16), hexDigit (c.toNat % 16)]
  else [c]

def jsonEscape (s : List UInt8) : List UInt8 := s.flatMap escapeByte

def buildPayloadJson (partition id : List UInt8) : List UInt8 :=
  ascii "\x7b\"partition\":\"" ++ jsonEscape partition ++ ascii "\",\"id\":\"" ++ jsonEscape id ++
    ascii "\"\x7d"

def kMagic : List UInt8 := ascii "AGSCACHE" ++ [0, 0, 0, 0, 0, 0, 0, 1]
def kFormatVersion : Nat := 1

def u32 (v : Nat) : Nat := v % 2 ^ 32

/-- what one visited entry adds to the body -/
def frame (e : SnapshotEntry) : List UInt8 :=
  let vecBytes := u32 (e.vec.length * 4)
  let payload := buildPayloadJson e.partition e.id
  writeU32LE vecBytes ++ (ofWords e.vec).take vecBytes ++ writeU32LE (u32 payload.length) ++ payload

structure DumpState where
  body : List UInt8
  entryCount : Nat := 0
  dim : Nat := 0

open DumpState

def DumpState.visit (s : DumpState) (e : SnapshotEntry) : DumpState :=
  if s.dim = 0 then
    { body := s.body ++ frame e, entryCount := (s.entryCount + 1) % 2 ^ 64, dim := u32 e.vec.length }
  else if u32 e.vec.length ≠ s.dim then s
  else { s with body := s.body ++ frame e, entryCount := (s.entryCount + 1) % 2 ^ 64 }

/-- bytes of a text replaced from an offset on -/
def patch (off : Nat) (bs s : List UInt8) : List UInt8 := s.take off ++ bs ++ s.drop (off + bs.length)

structure DumpStats where
  entriesWritten : Nat
  sha256Hex : List UInt8
  bytesWritten : Nat

def serialize (entries : List SnapshotEntry) : DumpState :=
  entries.foldl visit
    { body := kMagic ++ writeU32LE kFormatVersion ++ writeU32LE 0 ++ writeU64LE 0 }

def dump (digest : List UInt8 → Vector UInt8 32) (entries : List SnapshotEntry) :
    List UInt8 × DumpStats :=
  let s := serialize entries
  let serialized := patch 24 (writeU64LE s.entryCount) (patch 20 (writeU32LE s.dim) s.body)
  let digestHex := hex (digest serialized).toList
  (serialized ++ unhex digestHex,
    { entriesWritten := s.entryCount, sha256Hex := digestHex, bytesWritten := serialized.length + 32 })

/-! ## reading -/

def readU32LE (s : List UInt8) : Nat := ofLe (s.take 4)
def readU64LE (s : List UInt8) : Nat := ofLe (s.take 8)

def unescape (n : UInt8) : UInt8 :=
  if n = 0x6e then 0x0a
  else if n = 0x72 then 0x0d
  else if n = 0x74 then 0x09
  else if n = 0x62 then 0x08
  else if n = 0x66 then 0x0c
  else n

/-- the value of a field up to its closing quote -/
def scan : List UInt8 → Option (List UInt8)
  | [] => none
  | [c] => if c = quote then some [] else none
  | c :: n :: s =>
    if c = backslash then (scan s).map (unescape n :: ·)
    else if c = quote then some []
    else (scan (n :: s)).map (c :: ·)

def extractField (payload key : List UInt8) : Option (List UInt8) :=
  (after ([quote] ++ key ++ ascii "\":\"") payload).bind scan

def tenantFromPartition (partition : List UInt8) : List UInt8 :=
  if partition.take 7 ≠ ascii "tenant:" then []
  else (partition.drop 7).takeWhile (· ≠ 0x7c)

structure RestoreStats where
  entriesRead : Nat := 0
  entriesRestored : Nat := 0
  entriesSkippedTenant : Nat := 0
  entriesCorrupted : Nat := 0
  failureReason : String := ""
  checksumOk : Bool := false
  versionOk : Bool := false
  deriving Repr, DecidableEq

/-- the frame at the front of the unread part: its vector, its payload and what follows it -/
def readFrame (rest : List UInt8) : Except String (List UInt32 × List UInt8 × List UInt8) := do
  if rest.length < 4 then throw "truncated entry header"
  let vecBytes := readU32LE rest
  let rest := rest.drop 4
  if rest.length < vecBytes then throw "truncated vector bytes"
  let vec := if vecBytes % 4 = 0 then words (rest.take vecBytes) else []
  let rest := rest.drop vecBytes
  if rest.length < 4 then throw "truncated payload length"
  let payloadLen := readU32LE rest
  let rest := rest.drop 4
  if rest.length < payloadLen then throw "truncated payload"
  return (vec, rest.take payloadLen, rest.drop payloadLen)

section
variable {τ : Type*} (insert : τ → SnapshotEntry → Option τ) (allowlist : List (List UInt8)) (dim : Nat)

/-- one entry that has been read: `insert` throws where it is `none` -/
def replayEntry (vec : List UInt32) (payload : List UInt8) (r : RestoreStats × τ) :
    RestoreStats × τ :=
  let stats := { r.1 with entriesRead := r.1.entriesRead + 1 }
  let corrupted := { stats with entriesCorrupted := stats.entriesCorrupted + 1 }
  match extractField payload (ascii "partition"), extractField payload (ascii "id") with
  | some partition, some id =>
    if allowlist ≠ [] ∧ tenantFromPartition partition ∉ allowlist then
      ({ stats with entriesSkippedTenant := stats.entriesSkippedTenant + 1 }, r.2)
    else if vec.length ≠ dim then (corrupted, r.2)
    else
      match insert r.2 ⟨partition, id, vec⟩ with
      | some target => ({ stats with entriesRestored := stats.entriesRestored + 1 }, target)
      | none => (corrupted, r.2)
  | _, _ => (corrupted, r.2)

def replay : Nat → List UInt8 → RestoreStats × τ → RestoreStats × τ
  | 0, _, r => r
  | count + 1, rest, r =>
    match readFrame rest with
    | .error reason => ({ r.1 with failureReason := reason }, r.2)
    | .ok (vec, payload, rest) => replay count rest (replayEntry insert allowlist dim vec payload r)

end

def restore {τ : Type*} (insert : τ → SnapshotEntry → Option τ)
    (digest : List UInt8 → Vector UInt8 32) (file : List UInt8) (target : τ)
    (allowlist : List (List UInt8)) : RestoreStats × τ :=
  let body := file.take (file.length - 32)
  if file.length < 64 then ({ failureReason := "truncated file (< minimum size)" }, target)
  else if hex (digest body).toList ≠ hex (file.drop (file.length - 32)) then
    ({ failureReason := "sha256 mismatch (SR2)" }, target)
  else if file.take 16 ≠ kMagic then
    ({ checksumOk := true, failureReason := "bad magic" }, target)
  else if readU32LE (file.drop 16) ≠ kFormatVersion then
    ({ checksumOk := true,
       failureReason := "unsupported version " ++ toString (readU32LE (file.drop 16)) }, target)
  else
    replay insert allowlist (readU32LE (file.drop 20)) (readU64LE (file.drop 24)) (body.drop 32)
      ({ checksumOk := true, versionOk := true }, target)

/-! ## the text of a field -/

section
variable {s v : List UInt8}

/-- what may stand between the quotes of a field, and the value that `scan` gives it -/
inductive Body : List UInt8 → List UInt8 → Prop
  | nil : Body [] []
  | raw {c s v} (hq : c ≠ quote) (hb : c ≠ backslash) (h : Body s v) :
      Body (c :: s) (c :: v)
  | esc (n : UInt8) {s v} (h : Body s v) :
      Body (backslash :: n :: s) (unescape n :: v)

lemma scan_cons {c : UInt8} (s : List UInt8) (hq : c ≠ quote) (hb : c ≠ backslash) :
    scan (c :: s) = (scan s).map (c :: ·) := by
  cases s with
  | nil => exact if_neg hq
  | cons n s => rw [scan, if_neg hb, if_neg hq]

lemma scan_esc (n : UInt8) (s : List UInt8) :
    scan (backslash :: n :: s) = (scan s).map (unescape n :: ·) := by
  rw [scan, if_pos rfl]

lemma scan_quote (s : List UInt8) : scan (quote :: s) = some [] := by
  cases s with
  | nil => rfl
  | cons n s => rw [scan, if_neg (by decide), if_pos rfl]

lemma Body.scan (h : Body s v) (rest : List UInt8) : scan (s ++ quote :: rest) = some v := by
  induction h with
  | nil => exact scan_quote rest
  | raw hq hb _ ih => rw [cons_append, scan_cons _ hq hb, ih, Option.map_some]
  | esc n _ ih => rw [cons_append, cons_append, scan_esc, ih, Option.map_some]

lemma Body.scan_take (h : Body s v) (k : Nat) : Cache.scan (s.take k) = none := by
  induction h generalizing k with
  | nil => rw [take_nil, Cache.scan]
  | raw hq hb _ ih =>
    cases k with
    | zero => rfl
    | succ k => rw [take_succ_cons, scan_cons _ hq hb, ih, Option.map_none]
  | esc n _ ih =>
    match k with
    | 0 | 1 => rfl
    | k + 2 => rw [take_succ_cons, take_succ_cons, scan_esc, ih, Option.map_none]

/-- the bytes that `extractField` gives back as they were -/
def Plain (c : UInt8) : Prop := 0x20 ≤ c ∨ c ∈ [0x08, 0x09, 0x0a, 0x0c, 0x0d]

instance (c : UInt8) : Decidable (Plain c) := inferInstanceAs (Decidable (_ ∨ _))

/-- what a byte has become after escaping and scanning -/
def restoredByte (c : UInt8) : List UInt8 :=
  if Plain c then [c] else ascii "u00" ++ [hexDigit (c.toNat / 16), hexDigit (c.toNat % 16)]

def restoredText (s : List UInt8) : List UInt8 := s.flatMap restoredByte

lemma hexDigit_plain : ∀ d < 16, hexDigit d ≠ quote ∧ hexDigit d ≠ backslash := by decide

lemma Body.escapeByte (c : UInt8) (h : Body s v) :
    Body (escapeByte c ++ s) (restoredByte c ++ v) := by
  have short (n c : UInt8) (hc : unescape n = c) : Body (backslash :: n :: s) (c :: v) :=
    hc ▸ Body.esc n h
  unfold Cache.escapeByte
  by_cases h1 : c = quote
  · rw [if_pos h1, h1]
    exact short quote quote rfl
  rw [if_neg h1]
  by_cases h2 : c = backslash
  · rw [if_pos h2, h2]
    exact short backslash backslash rfl
  rw [if_neg h2]
  by_cases h3 : c = 0x0a
  · rw [if_pos h3, h3]
    exact short 0x6e 0x0a rfl
  rw [if_neg h3]
  by_cases h4 : c = 0x0d
  · rw [if_pos h4, h4]
    exact short 0x72 0x0d rfl
  rw [if_neg h4]
  by_cases h5 : c = 0x09
  · rw [if_pos h5, h5]
    exact short 0x74 0x09 rfl
  rw [if_neg h5]
  by_cases h6 : c = 0x08
  · rw [if_pos h6, h6]
    exact short 0x62 0x08 rfl
  rw [if_neg h6]
  by_cases h7 : c = 0x0c
  · rw [if_pos h7, h7]
    exact short 0x66 0x0c rfl
  rw [if_neg h7]
  by_cases h8 : c < 0x20
  · -- the long escape is read as an escaped character and four plain ones
    have hp : ¬ Plain c := by
      intro hp
      simp only [Plain, mem_cons, not_mem_nil, or_false] at hp
      rcases hp with hp | hp | hp | hp | hp | hp
      · exact absurd h8 (UInt8.not_lt.2 hp)
      all_goals contradiction
    have hc : c.toNat < 256 := c.toNat_lt
    obtain ⟨hq, hb⟩ := hexDigit_plain (c.toNat / 16) (by omega)
    obtain ⟨hq', hb'⟩ := hexDigit_plain (c.toNat % 16) (by omega)
    rw [if_pos h8, restoredByte, if_neg hp]
    exact .esc 0x75 (.raw (by decide) (by decide) (.raw (by decide) (by decide)
      (.raw hq hb (.raw hq' hb' h))))
  · have hp : Plain c := Or.inl (UInt8.not_lt.1 h8)
    rw [if_neg h8, restoredByte, if_pos hp]
    exact .raw h1 h2 h

lemma body_jsonEscape (s : List UInt8) : Body (jsonEscape s) (restoredText s) := by
  induction s with
  | nil => exact .nil
  | cons c s ih => exact ih.escapeByte c

lemma length_restoredText (s : List UInt8) : s.length ≤ (restoredText s).length := by
  induction s with
  | nil => exact Nat.le_refl _
  | cons c s ih =>
    have hc : 1 ≤ (restoredByte c).length := by
      unfold restoredByte
      split <;> simp
    rw [restoredText, flatMap_cons, length_append, length_cons]
    rw [restoredText] at ih
    omega

lemma restoredText_of_plain (h : ∀ c ∈ s, Plain c) : restoredText s = s := by
  induction s with
  | nil => rfl
  | cons c s ih =>
    rw [forall_mem_cons] at h
    rw [restoredText] at ih ⊢
    rw [flatMap_cons, ih h.2, restoredByte, if_pos h.1]
    rfl

lemma plain_of_length (h : (restoredText s).length ≤ s.length) : ∀ c ∈ s, Plain c := by
  induction s with
  | nil => simp
  | cons c s ih =>
    have hs := length_restoredText s
    have hcs : (restoredText (c :: s)).length = (restoredByte c).length + (restoredText s).length := by
      rw [restoredText, flatMap_cons, length_append, restoredText]
    rw [hcs, length_cons] at h
    have hc : Plain c := by
      by_contra hc
      have h5 : (restoredByte c).length = 5 := by
        rw [restoredByte, if_neg hc]
        rfl
      omega
    have h1 : (restoredByte c).length = 1 := by
      rw [restoredByte, if_pos hc]
      rfl
    exact forall_mem_cons.2 ⟨hc, ih (by omega)⟩

end

/-! ## the fields of a payload -/

section
variable (partition s id : List UInt8)

def idNeedle : List UInt8 := [quote] ++ ascii "id" ++ ascii "\":\""

lemma not_idNeedle_of_ne {c : UInt8} (hc : c ≠ quote) : ¬ idNeedle <+: c :: s :=
  fun h => hc (cons_prefix_cons.1 h).1.symm

lemma not_idNeedle_quote {c : UInt8} (hc : c ≠ 0x69) : ¬ idNeedle <+: quote :: c :: s :=
  fun h => hc (cons_prefix_cons.1 (cons_prefix_cons.1 h).2).1.symm

lemma after_idNeedle_skip {l : List UInt8} (hl : quote ∉ l) :
    after idNeedle (l ++ s) = after idNeedle s := by
  induction l with
  | nil => rfl
  | cons c l ih =>
    have hc : c ≠ quote := fun heq => hl (heq ▸ mem_cons_self)
    rw [cons_append, after_cons_of_not _ _ _ (not_idNeedle_of_ne _ hc),
      ih fun hmem => hl (mem_cons_of_mem c hmem)]

lemma Body.not_idNeedle {s v : List UInt8} (h : Body s v) (rest : List UInt8) :
    ¬ idNeedle <+: quote :: (s ++ quote :: 0x2c :: rest) := by
  intro hp
  have hp : [0x69, 0x64, quote, 0x3a, quote] <+: s ++ quote :: 0x2c :: rest :=
    (cons_prefix_cons.1 hp).2
  cases h with
  | nil | esc n h => exact absurd (cons_prefix_cons.1 hp).1 (by decide)
  | raw hq hb h =>
    have hp := (cons_prefix_cons.1 hp).2
    cases h with
    | nil | esc n h => exact absurd (cons_prefix_cons.1 hp).1 (by decide)
    | raw hq' hb' h =>
      have hp := (cons_prefix_cons.1 hp).2
      cases h with
      | nil => exact absurd (cons_prefix_cons.1 (cons_prefix_cons.1 hp).2).1 (by decide)
      | esc n h => exact absurd (cons_prefix_cons.1 hp).1 (by decide)
      | raw hq'' hb'' h => exact hq'' (cons_prefix_cons.1 hp).1.symm

lemma Body.after_idNeedle {s v : List UInt8} (h : Body s v) (rest : List UInt8) :
    after idNeedle (s ++ quote :: 0x2c :: (idNeedle ++ rest)) = some rest := by
  induction h with
  | nil =>
    rw [nil_append, after_cons_of_not _ _ _ (not_idNeedle_quote _ (by decide)),
      after_cons_of_not _ _ _ (not_idNeedle_of_ne _ (by decide)), after_append_self _ _ (by decide)]
  | raw hq hb h ih =>
    rw [cons_append, after_cons_of_not _ _ _ (not_idNeedle_of_ne _ hq), ih]
  | @esc n s v h ih =>
    have hn : ¬ idNeedle <+: n :: (s ++ quote :: 0x2c :: (idNeedle ++ rest)) := by
      by_cases hq : n = quote
      · rw [hq]
        exact h.not_idNeedle _
      · exact not_idNeedle_of_ne _ hq
    rw [cons_append, cons_append,
      after_cons_of_not _ _ _ (not_idNeedle_of_ne _ (by decide)), after_cons_of_not _ _ _ hn, ih]

lemma buildPayloadJson_eq :
    buildPayloadJson partition id = 0x7b :: (ascii "\"partition\":\"" ++
      (jsonEscape partition ++ quote :: 0x2c :: (idNeedle ++ (jsonEscape id ++ [quote, 0x7d])))) := by
  have h1 : ascii "\x7b\"partition\":\"" = 0x7b :: ascii "\"partition\":\"" := rfl
  have h2 : ascii "\",\"id\":\"" = quote :: 0x2c :: idNeedle := rfl
  have h3 : ascii "\"\x7d" = [quote, 0x7d] := rfl
  rw [buildPayloadJson, h1, h2, h3]
  simp only [append_assoc, cons_append]

lemma extractField_partition :
    extractField (buildPayloadJson partition id) (ascii "partition") =
      some (restoredText partition) := by
  have hn : [quote] ++ ascii "partition" ++ ascii "\":\"" = ascii "\"partition\":\"" := rfl
  have hb : ∀ s, ¬ ascii "\"partition\":\"" <+: 0x7b :: s := fun s h =>
    absurd (cons_prefix_cons.1 h).1 (by decide)
  rw [extractField, hn, buildPayloadJson_eq, after_cons_of_not _ _ _ (hb _),
    after_append_self _ _ (by decide), Option.bind_some, (body_jsonEscape partition).scan]

lemma after_idNeedle_buildPayloadJson :
    after idNeedle (buildPayloadJson partition id) = some (jsonEscape id ++ [quote, 0x7d]) := by
  have hb := body_jsonEscape partition
  have hskip (s : List UInt8) (hs : ¬ idNeedle <+: quote :: s) :
      after idNeedle (0x7b :: (ascii "\"partition\":\"" ++ s)) = after idNeedle s := by
    show after idNeedle
      (0x7b :: quote :: 0x70 :: (ascii "artition" ++ (quote :: 0x3a :: quote :: s))) = _
    rw [after_cons_of_not _ _ _ (not_idNeedle_of_ne _ (by decide)),
      after_cons_of_not _ _ _ (not_idNeedle_quote _ (by decide)),
      after_cons_of_not _ _ _ (not_idNeedle_of_ne _ (by decide)), after_idNeedle_skip _ (by decide),
      after_cons_of_not _ _ _ (not_idNeedle_quote _ (by decide)),
      after_cons_of_not _ _ _ (not_idNeedle_of_ne _ (by decide)), after_cons_of_not _ _ _ hs]
  rw [buildPayloadJson_eq, hskip _ (hb.not_idNeedle _), hb.after_idNeedle]

lemma extractField_id :
    extractField (buildPayloadJson partition id) (ascii "id") = some (restoredText id) := by
  show (after idNeedle _).bind scan = _
  rw [after_idNeedle_buildPayloadJson, Option.bind_some, (body_jsonEscape id).scan]

lemma extractField_id_take (k : Nat) (hk : k + 2 ≤ (buildPayloadJson partition id).length) :
    extractField ((buildPayloadJson partition id).take k) (ascii "id") = none := by
  show (after idNeedle _).bind scan = none
  cases h : after idNeedle ((buildPayloadJson partition id).take k) with
  | none => rfl
  | some r =>
    have hr := after_append idNeedle _ r ((buildPayloadJson partition id).drop k) (by decide) h
    rw [take_append_drop, after_idNeedle_buildPayloadJson] at hr
    have hr : jsonEscape id ++ [quote, 0x7d] = r ++ (buildPayloadJson partition id).drop k :=
      Option.some.inj hr
    have hlen : r.length ≤ (jsonEscape id).length := by
      have := congrArg List.length hr
      simp only [length_append, length_drop, length_cons, length_nil] at this
      omega
    have hr : r = (jsonEscape id).take r.length := by
      have h := congrArg (List.take r.length) hr
      rw [take_left, take_append_of_le_length hlen] at h
      exact h.symm
    rw [Option.bind_some, hr, (body_jsonEscape id).scan_take]

end

/-! ## frames -/

open Nat

section
variable (v : Nat) (e : SnapshotEntry) (rest : List UInt8)

def payloadOf (e : SnapshotEntry) : List UInt8 := buildPayloadJson e.partition e.id

def restoredVec (e : SnapshotEntry) : List UInt32 :=
  words ((ofWords e.vec).take (u32 (e.vec.length * 4)))

def restoredEntry (e : SnapshotEntry) : SnapshotEntry :=
  ⟨restoredText e.partition, restoredText e.id, restoredVec e⟩

lemma length_restoredVec : (restoredVec e).length = e.vec.length % 2 ^ 30 := by
  rw [restoredVec, length_words, length_take, length_ofWords, u32]
  omega

lemma restoredVec_of_lt {e : SnapshotEntry} (h : e.vec.length < 2 ^ 30) : restoredVec e = e.vec := by
  have hu : u32 (e.vec.length * 4) = (ofWords e.vec).length := by
    rw [u32, length_ofWords]
    omega
  rw [restoredVec, hu, take_length, words_ofWords]

lemma readU32LE_writeU32LE : readU32LE (writeU32LE v ++ rest) = u32 v := ofLe_take 4 v rest

lemma readU64LE_writeU64LE : readU64LE (writeU64LE v ++ rest) = v % 2 ^ 64 := ofLe_take 8 v rest

lemma u32_u32 : u32 (u32 v) = u32 v := mod_mod _ _

/-- a length field that has wrapped round leaves the end of the payload to be read as a frame -/
lemma readFrame_frame :
    readFrame (frame e ++ rest) = .ok (restoredVec e, (payloadOf e).take (u32 (payloadOf e).length),
      (payloadOf e).drop (u32 (payloadOf e).length) ++ rest) := by
  have hv : u32 (e.vec.length * 4) ≤ e.vec.length * 4 := mod_le _ _
  have hp : u32 (payloadOf e).length ≤ (payloadOf e).length := mod_le _ _
  have hlen : ((ofWords e.vec).take (u32 (e.vec.length * 4))).length = u32 (e.vec.length * 4) := by
    rw [length_take, length_ofWords]
    omega
  have h4 : u32 (e.vec.length * 4) % 4 = 0 := by
    rw [u32]
    omega
  have hw (v : Nat) (t : List UInt8) : ¬ (writeU32LE v ++ t).length < 4 := by
    rw [length_append, writeU32LE, length_le]
    omega
  have hd (v : Nat) (t : List UInt8) : (writeU32LE v ++ t).drop 4 = t := drop_le 4 v t
  have hframe : frame e ++ rest = writeU32LE (u32 (e.vec.length * 4)) ++
      ((ofWords e.vec).take (u32 (e.vec.length * 4)) ++
        (writeU32LE (u32 (payloadOf e).length) ++ (payloadOf e ++ rest))) := by
    rw [frame, payloadOf]
    simp only [append_assoc]
  rw [hframe]
  unfold readFrame
  simp only [hw, hd, readU32LE_writeU32LE, u32_u32, if_false, take_left' hlen,
    drop_left' hlen, h4, if_true]
  rw [if_neg (by rw [length_append, hlen]; omega),
    if_neg (by rw [length_append]; omega), take_append_of_le_length hp, drop_append_of_le_length hp]
  rfl

end

/-! ## replaying into a store that takes every entry -/

def keep (target : List SnapshotEntry) (e : SnapshotEntry) : Option (List SnapshotEntry) :=
  some (target ++ [e])

section
variable (dim : Nat) (vec : List UInt32) (count : Nat) (es : List SnapshotEntry)
  (e : SnapshotEntry) (rest : List UInt8) (r : RestoreStats × List SnapshotEntry)

lemma replayEntry_payload (h : (restoredVec e).length = dim)
    (r : RestoreStats × List SnapshotEntry) :
    replayEntry keep [] dim (restoredVec e) (payloadOf e) r =
      ({ r.1 with entriesRead := r.1.entriesRead + 1, entriesRestored := r.1.entriesRestored + 1 },
        r.2 ++ [restoredEntry e]) := by
  rw [replayEntry, payloadOf, extractField_partition, extractField_id]
  simp [h, keep, restoredEntry]

lemma replayEntry_restored_le (payload : List UInt8) (r : RestoreStats × List SnapshotEntry) :
    (replayEntry keep [] dim vec payload r).1.entriesRestored ≤ r.1.entriesRestored + 1 := by
  unfold replayEntry
  simp only [keep]
  split
  · split_ifs <;> simp
  · simp

lemma replay_restored_le :
    (replay keep [] dim count rest r).1.entriesRestored ≤ r.1.entriesRestored + count := by
  induction count generalizing rest r with
  | zero => exact le_refl _
  | succ count ih =>
    rw [replay]
    split
    · exact le_add_right _ _
    · next vec payload rest' _ =>
      have h1 := replayEntry_restored_le dim vec payload r
      have h2 := ih rest' (replayEntry keep [] dim vec payload r)
      omega

lemma replay_frame :
    replay keep [] dim (count + 1) (frame e ++ rest) r =
      replay keep [] dim count ((payloadOf e).drop (u32 (payloadOf e).length) ++ rest)
        (replayEntry keep [] dim (restoredVec e)
          ((payloadOf e).take (u32 (payloadOf e).length)) r) := by
  rw [replay, readFrame_frame]

lemma replay_frames
    (hes : ∀ e ∈ es, (payloadOf e).length < 2 ^ 32 ∧ (restoredVec e).length = dim) :
    replay keep [] dim es.length (es.flatMap frame) r =
      ({ r.1 with entriesRead := r.1.entriesRead + es.length,
                  entriesRestored := r.1.entriesRestored + es.length },
        r.2 ++ es.map restoredEntry) := by
  induction es generalizing r with
  | nil => simp [replay]
  | cons e es ih =>
    rw [forall_mem_cons] at hes
    have hu : u32 (payloadOf e).length = (payloadOf e).length := mod_eq_of_lt hes.1.1
    rw [flatMap_cons, length_cons, replay_frame, hu, take_length, drop_length,
      nil_append, replayEntry_payload dim e hes.1.2, ih _ hes.2]
    simp [add_assoc, add_comm 1]

lemma replayEntry_no_id {payload : List UInt8} (h : extractField payload (ascii "id") = none)
    (r : RestoreStats × List SnapshotEntry) :
    (replayEntry keep [] dim vec payload r).1.entriesRestored = r.1.entriesRestored := by
  rw [replayEntry, h]
  simp

lemma replayEntry_other_dim {e : SnapshotEntry} (h : (restoredVec e).length ≠ dim)
    (r : RestoreStats × List SnapshotEntry) :
    (replayEntry keep [] dim (restoredVec e) (payloadOf e) r).1.entriesRestored
      = r.1.entriesRestored := by
  rw [replayEntry, payloadOf, extractField_partition, extractField_id]
  simp [h]

lemma extractField_id_wrapped {e : SnapshotEntry} (h : 2 ^ 32 ≤ (payloadOf e).length) :
    extractField ((payloadOf e).take (u32 (payloadOf e).length)) (ascii "id") = none := by
  refine extractField_id_take _ _ _ ?_
  have hmod : u32 (payloadOf e).length = (payloadOf e).length % 2 ^ 32 := rfl
  show u32 (payloadOf e).length + 2 ≤ (payloadOf e).length
  omega

lemma fits_of_restored (h : r.1.entriesRestored + es.length ≤
      (replay keep [] dim es.length (es.flatMap frame) r).1.entriesRestored) :
    ∀ e ∈ es, (payloadOf e).length < 2 ^ 32 ∧ (restoredVec e).length = dim := by
  induction es generalizing r with
  | nil => simp
  | cons e es ih =>
    rw [flatMap_cons, length_cons, replay_frame] at h
    have hle := replay_restored_le dim es.length ((payloadOf e).drop (u32 (payloadOf e).length) ++
      es.flatMap frame) (replayEntry keep [] dim (restoredVec e)
        ((payloadOf e).take (u32 (payloadOf e).length)) r)
    have hpay : (payloadOf e).length < 2 ^ 32 := by
      by_contra hge
      have hr := replayEntry_no_id dim (restoredVec e)
        (extractField_id_wrapped (not_lt.1 hge)) r
      omega
    have hu : u32 (payloadOf e).length = (payloadOf e).length := mod_eq_of_lt hpay
    rw [hu, take_length, drop_length, nil_append] at h hle
    have hvec : (restoredVec e).length = dim := by
      by_contra hne
      have hr := replayEntry_other_dim dim hne r
      omega
    have hr := replayEntry_restored_le dim (restoredVec e) (payloadOf e) r
    exact forall_mem_cons.2 ⟨⟨hpay, hvec⟩,
      ih (replayEntry keep [] dim (restoredVec e) (payloadOf e) r) (by omega)⟩

end

/-! ## the whole file -/

section
variable (n : Nat)

lemma visit_eq (s : DumpState) (e : SnapshotEntry) (he : e.vec.length = n)
    (hs : s.dim = 0 ∨ s.dim = u32 n) :
    s.visit e = { body := s.body ++ frame e, entryCount := (s.entryCount + 1) % 2 ^ 64,
                  dim := u32 n } := by
  subst he
  by_cases h0 : s.dim = 0
  · rw [visit, if_pos h0]
  · have hd := hs.resolve_left h0
    rw [visit, if_neg h0, if_neg (by rw [hd]; exact not_not_intro rfl), hd]

lemma foldl_visit (es : List SnapshotEntry) (s : DumpState) (hes : ∀ e ∈ es, e.vec.length = n)
    (hs : s.dim = 0 ∨ s.dim = u32 n) (hc : s.entryCount < 2 ^ 64) :
    es.foldl visit s = { body := s.body ++ es.flatMap frame,
                                   entryCount := (s.entryCount + es.length) % 2 ^ 64,
                                   dim := if es = [] then s.dim else u32 n } := by
  induction es generalizing s with
  | nil =>
    rw [foldl_nil, length_nil, add_zero, mod_eq_of_lt hc, flatMap_nil, append_nil, if_pos rfl]
  | cons e es ih =>
    rw [forall_mem_cons] at hes
    rw [foldl_cons, visit_eq n s e hes.1 hs, ih _ hes.2 (Or.inr rfl) (mod_lt _ (by decide))]
    simp only [flatMap_cons, append_assoc, length_cons, ite_self, reduceCtorEq,
      if_false, mod_add_mod, add_assoc, add_comm 1]

end

lemma patch_append (a b bs c : List UInt8) (off : Nat) (ha : a.length = off)
    (hb : b.length = bs.length) : patch off bs (a ++ (b ++ c)) = a ++ (bs ++ c) := by
  have hab : (a ++ b).length = off + bs.length := by rw [length_append, ha, hb]
  rw [patch, take_left' ha, ← append_assoc a b c, drop_left' hab, append_assoc]

def header (dim count : Nat) : List UInt8 :=
  kMagic ++ writeU32LE kFormatVersion ++ writeU32LE dim ++ writeU64LE count

lemma patch_header (dim count : Nat) (s : List UInt8) :
    patch 24 (writeU64LE count) (patch 20 (writeU32LE dim) (header 0 0 ++ s)) =
      header dim count ++ s := by
  have h0 (dim count : Nat) : header dim count ++ s =
      (kMagic ++ writeU32LE kFormatVersion) ++ (writeU32LE dim ++ (writeU64LE count ++ s)) := by
    simp only [header, append_assoc]
  have h1 : kMagic ++ writeU32LE kFormatVersion ++ (writeU32LE dim ++ (writeU64LE 0 ++ s)) =
      (kMagic ++ writeU32LE kFormatVersion ++ writeU32LE dim) ++ (writeU64LE 0 ++ s) := by
    simp only [append_assoc]
  rw [h0, patch_append _ (writeU32LE 0) (writeU32LE dim) _ 20 rfl rfl, h1,
    patch_append _ (writeU64LE 0) (writeU64LE count) _ 24 rfl rfl, h0, append_assoc]

lemma length_header (dim count : Nat) : (header dim count).length = 32 := rfl

section
variable (digest : List UInt8 → Vector UInt8 32) (es : List SnapshotEntry)

lemma dump_eq (n : Nat) (hes : ∀ e ∈ es, e.vec.length = n) : (dump digest es).1 =
      (header (if es = [] then 0 else u32 n) (es.length % 2 ^ 64) ++ es.flatMap frame) ++
        (digest (header (if es = [] then 0 else u32 n) (es.length % 2 ^ 64) ++
          es.flatMap frame)).toList := by
  have hs : serialize es = { body := header 0 0 ++ es.flatMap frame,
                             entryCount := es.length % 2 ^ 64,
                             dim := if es = [] then 0 else u32 n } := by
    rw [serialize, foldl_visit n es _ hes (Or.inl rfl) (by decide), header, zero_add]
  rw [dump, hs]
  simp only [patch_header, unhex_hex]

lemma restore_file {τ : Type*} (insert : τ → SnapshotEntry → Option τ) (target : τ)
    (allowlist : List (List UInt8)) (dim count : Nat) (frames : List UInt8) :
    restore insert digest ((header dim count ++ frames) ++ (digest (header dim count ++ frames)).toList)
        target allowlist = replay insert allowlist (u32 dim) (count % 2 ^ 64) frames
        ({ checksumOk := true, versionOk := true }, target) := by
  have hd : (digest (header dim count ++ frames)).toList.length = 32 := by
    rw [Vector.length_toList]
  have hlen : ((header dim count ++ frames) ++
      (digest (header dim count ++ frames)).toList).length - 32 =
        (header dim count ++ frames).length := by
    rw [length_append, hd]
    omega
  have hmin : ¬ ((header dim count ++ frames) ++
      (digest (header dim count ++ frames)).toList).length < 64 := by
    rw [length_append, length_append, hd, length_header]
    omega
  rw [restore, hlen, take_left, drop_left]
  generalize (digest (header dim count ++ frames)).toList = t at hmin
  have h0 : header dim count ++ frames ++ t = kMagic ++ (writeU32LE kFormatVersion ++
      (writeU32LE dim ++ (writeU64LE count ++ (frames ++ t)))) := by
    simp only [header, append_assoc]
  have hmagic : (header dim count ++ frames ++ t).take 16 = kMagic := by
    rw [h0]
    exact take_left' rfl
  have h16 : (header dim count ++ frames ++ t).drop 16 = writeU32LE kFormatVersion ++
      (writeU32LE dim ++ (writeU64LE count ++ (frames ++ t))) := by
    rw [h0]
    exact drop_left' rfl
  have h20 : (header dim count ++ frames ++ t).drop 20 =
      writeU32LE dim ++ (writeU64LE count ++ (frames ++ t)) := by
    rw [show 20 = 16 + 4 from rfl, ← drop_drop, h16]
    exact drop_le 4 _ _
  have h24 : (header dim count ++ frames ++ t).drop 24 = writeU64LE count ++ (frames ++ t) := by
    rw [show 24 = 20 + 4 from rfl, ← drop_drop, h20]
    exact drop_le 4 _ _
  rw [hmagic, h16, h20, h24, readU32LE_writeU32LE, readU32LE_writeU32LE, readU64LE_writeU64LE,
    drop_left' (length_header dim count)]
  have hversion : u32 kFormatVersion = kFormatVersion := rfl
  rw [hversion, if_neg hmin, if_neg (not_not_intro rfl), if_neg (not_not_intro rfl),
    if_neg (not_not_intro rfl)]

lemma restore_dump (n : Nat) (hes : ∀ e ∈ es, e.vec.length = n) :
    restore keep digest (dump digest es).1 [] [] =
      replay keep [] (if es = [] then 0 else u32 n) (es.length % 2 ^ 64) (es.flatMap frame)
        ({ checksumOk := true, versionOk := true }, []) := by
  have hd : u32 (if es = [] then 0 else u32 n) = if es = [] then 0 else u32 n := by
    split
    · rfl
    · exact u32_u32 n
  rw [dump_eq digest es n hes, restore_file, hd, mod_mod]

def textLength (e : SnapshotEntry) : Nat := e.partition.length + e.id.length

lemma textLength_restoredEntry (e : SnapshotEntry) : textLength e ≤ textLength (restoredEntry e) :=
  Nat.add_le_add (length_restoredText _) (length_restoredText _)

/-- texts only grow, so a collection that came back has kept each of its texts -/
lemma textLength_eq_of_perm {es : List SnapshotEntry} (h : (es.map restoredEntry).Perm es) :
    ∀ e ∈ es, textLength (restoredEntry e) = textLength e := by
  have hsum : (es.map textLength).sum = (es.map fun e => textLength (restoredEntry e)).sum := by
    have := (h.map textLength).sum_eq
    rw [map_map] at this
    exact this.symm
  intro e he
  by_contra hne
  have hlt : (es.map textLength).sum < (es.map fun e => textLength (restoredEntry e)).sum :=
    sum_lt_sum _ _ (fun e _ => textLength_restoredEntry e)
      ⟨e, he, lt_of_le_of_ne (textLength_restoredEntry e) (Ne.symm hne)⟩
  omega

/-- Restoring a dump into an empty store gives the collection back exactly when no length field
wraps round and `extractField` restores every byte of every partition and id: no control byte, but
those with a short escape. -/
theorem restore_dump_iff (n : Nat) (hes : ∀ e ∈ es, e.vec.length = n) :
    ((restore keep digest (dump digest es).1 [] []).2.Perm es ∧
        (restore keep digest (dump digest es).1 [] []).1.entriesRestored = es.length) ↔
      es.length < 2 ^ 64 ∧ ∀ e ∈ es, e.vec.length < 2 ^ 30 ∧
        (buildPayloadJson e.partition e.id).length < 2 ^ 32 ∧
        (∀ c ∈ e.partition, Plain c) ∧ ∀ c ∈ e.id, Plain c := by
  rw [restore_dump digest es n hes]
  constructor
  · intro ⟨hperm, hcount⟩
    have hlt : es.length < 2 ^ 64 := by
      have hle := replay_restored_le (if es = [] then 0 else u32 n) (es.length % 2 ^ 64)
        (es.flatMap frame) ({ checksumOk := true, versionOk := true }, [])
      rw [hcount, zero_add] at hle
      omega
    rw [mod_eq_of_lt hlt] at hperm hcount
    have hfits := fits_of_restored (if es = [] then 0 else u32 n) es
      ({ checksumOk := true, versionOk := true }, []) (by rw [hcount, zero_add])
    rw [replay_frames _ es _ hfits, nil_append] at hperm
    refine ⟨hlt, fun e he => ?_⟩
    have hvec : e.vec.length < 2 ^ 30 := by
      have hr := hes _ (hperm.mem_iff.1 (mem_map_of_mem he))
      have hr : (restoredVec e).length = n := hr
      rw [length_restoredVec, ← hes e he] at hr
      omega
    have htext : (restoredText e.partition).length + (restoredText e.id).length =
        e.partition.length + e.id.length := textLength_eq_of_perm hperm e he
    have hp := length_restoredText e.partition
    have hi := length_restoredText e.id
    exact ⟨hvec, (hfits e he).1, plain_of_length (by omega), plain_of_length (by omega)⟩
  · intro ⟨hlt, hall⟩
    have hkept : es.map restoredEntry = es := by
      refine map_congr_left (fun e he => ?_) |>.trans (map_id es)
      obtain ⟨hv, -, hp, hi⟩ := hall e he
      rw [restoredEntry, restoredText_of_plain hp, restoredText_of_plain hi, restoredVec_of_lt hv]
      rfl
    have hfits : ∀ e ∈ es, (payloadOf e).length < 2 ^ 32 ∧
        (restoredVec e).length = if es = [] then 0 else u32 n := by
      intro e he
      obtain ⟨hv, hp, -, -⟩ := hall e he
      refine ⟨hp, ?_⟩
      rw [if_neg (ne_nil_of_mem he), restoredVec_of_lt hv, hes e he, u32]
      rw [hes e he] at hv
      omega
    rw [mod_eq_of_lt hlt, replay_frames _ es _ hfits, hkept]
    exact ⟨List.Perm.refl _, zero_add _⟩

end

def zeroDigest (_ : List UInt8) : Vector UInt8 32 := Vector.replicate 32 0

def quotedEntry : SnapshotEntry := ⟨ascii "tenant:a", ascii "x\"\n", [7]⟩

theorem restore_dump_quoted :
    (restore keep zeroDigest (dump zeroDigest [quotedEntry]).1 [] []).2.Perm [quotedEntry] ∧
      (restore keep zeroDigest (dump zeroDigest [quotedEntry]).1 [] []).1.entriesRestored = 1 := by
  have hplain : ∀ s : List UInt8, s.all (fun c => decide (Plain c)) → ∀ c ∈ s, Plain c :=
    fun s h c hc => of_decide_eq_true (all_eq_true.1 h c hc)
  refine (restore_dump_iff zeroDigest [quotedEntry] 1 ?_).2 ⟨by decide, fun e he => ?_⟩
  · intro e he
    rw [mem_singleton.1 he]
    rfl
  · rw [mem_singleton.1 he]
    exact ⟨by decide, by decide, hplain _ rfl, hplain _ rfl⟩

/-- an id that is one control byte without a short escape -/
def controlEntry : SnapshotEntry := ⟨[], [0x01], []⟩

theorem restore_dump_control :
    (restore keep zeroDigest (dump zeroDigest [controlEntry]).1 [] []).2 = [⟨[], ascii "u0001", []⟩] ∧
      ¬ (restore keep zeroDigest (dump zeroDigest [controlEntry]).1 [] []).2.Perm [controlEntry] := by
  have h : (restore keep zeroDigest (dump zeroDigest [controlEntry]).1 [] []).2 =
      [⟨[], ascii "u0001", []⟩] := by decide
  exact ⟨h, by rw [h]; decide⟩

end AegisGate.Cache
