import Mathlib.Data.List.Basic
import AegisGate.Core.Types

/-!
# Truncation of a conversation

`PromptCompressor::truncateMessages` keeps the system and tool messages of a conversation and, up to a
number of messages in all, the last of the others.  The former come first in what is left, so that the
order is kept exactly when the others that stay come after all of them
(`truncateMessages_faithful_iff`).
-/

namespace AegisGate.PromptCompressor

open List

def isPreserved (msg : Message) : Bool := msg.role == "system" || isToolMessage msg

def truncateMessages (maxMsgs : ℕ) (messages : List Message) : List Message :=
  if messages.length ≤ maxMsgs then messages
  else
    let preservedMsgs := messages.filter isPreserved
    let nonPreservedMsgs := messages.filter (!isPreserved ·)
    let keepCount := maxMsgs - preservedMsgs.length
    preservedMsgs ++ nonPreservedMsgs.drop (nonPreservedMsgs.length - keepCount)

/-- the order of the conversation, all that is preserved, the most recent of the others -/
structure Faithful (n : ℕ) (l l' : List Message) : Prop where
  order : l' <+ l
  preserved : l'.filter isPreserved = l.filter isPreserved
  recent : l'.filter (!isPreserved ·) <:+ l.filter (!isPreserved ·)
  length : l'.length ≤ max n (l.filter isPreserved).length

/-- from the end: some that are not `p`, and then all that are -/
lemma take_append_filter_sublist_iff {α : Type*} (p : α → Bool) (l : List α) (k : ℕ)
    (hk : k ≤ (l.filter (!p ·)).length) :
    (l.filter (!p ·)).take k ++ l.filter p <+ l ↔ k ≤ (l.takeWhile (!p ·)).length := by
  induction l generalizing k with
  | nil => simpa using hk
  | cons a l ih =>
    cases k with
    | zero => simp
    | succ k =>
      cases ha : p a with
      | false =>
        simp only [ha, Bool.not_false, filter_cons_of_pos, length_cons, Nat.succ_le_succ_iff] at hk
        simp [ha, ih k hk]
      | true =>
        refine iff_of_false (fun h => ?_) (by simp [ha])
        simp only [filter_cons, ha, Bool.not_true, Bool.false_eq_true, if_false, if_true] at hk h
        obtain ⟨b, t, hb⟩ := exists_cons_of_length_pos (Nat.lt_of_lt_of_le k.succ_pos hk)
        have hpb : p b = false := by
          simpa using (mem_filter.1 (hb ▸ mem_cons_self : b ∈ l.filter (!p ·))).2
        rw [hb, take_succ_cons, cons_append] at h
        -- the list starts with `b`, so it lies in `l`, where `a` is one too many
        rcases sublist_cons_iff.1 h with hl | ⟨r, hr, -⟩
        · have hp := ((sublist_append_right (b :: t.take k) _).trans hl).filter p
          simp only [filter_cons_of_pos ha, filter_filter, Bool.and_self] at hp
          exact absurd hp.length_le (Nat.not_succ_le_self _)
        · rw [(cons.inj hr).1, ha] at hpb
          cases hpb

lemma filter_append_parts {α : Type*} {p : α → Bool} {a b : List α} (ha : ∀ x ∈ a, p x)
    (hb : ∀ x ∈ b, !p x) : (a ++ b).filter p = a ∧ (a ++ b).filter (!p ·) = b := by
  have ha' : a.filter (!p ·) = [] := filter_eq_nil_iff.2 (by simpa using ha)
  have hb' : b.filter p = [] := filter_eq_nil_iff.2 (by simpa using hb)
  rw [filter_append, filter_append, filter_eq_self.2 ha, filter_eq_self.2 hb, ha', hb']
  exact ⟨append_nil a, rfl⟩

/-- what is kept of the others goes behind all preserved messages: it has to come from the end of the
list, where no preserved one follows -/
theorem truncateMessages_faithful_iff (n : ℕ) (l : List Message) :
    Faithful n l (truncateMessages n l) ↔ l.length ≤ n ∨
      n - (l.filter isPreserved).length ≤ (l.reverse.takeWhile (!isPreserved ·)).length := by
  unfold truncateMessages
  split
  · rename_i h
    exact iff_of_true ⟨.refl l, rfl, suffix_rfl, h.trans (Nat.le_max_left ..)⟩ (.inl h)
  · rename_i h
    have hlen := length_eq_length_filter_add (l := l) isPreserved
    set k := n - (l.filter isPreserved).length
    have hk : k ≤ (l.filter (!isPreserved ·)).length := by omega
    have horder := take_append_filter_sublist_iff isPreserved l.reverse k (by simpa using hk)
    rw [filter_reverse, filter_reverse, take_reverse, ← reverse_append, reverse_sublist] at horder
    rw [or_iff_right h, ← horder]
    obtain ⟨hp, ho⟩ := filter_append_parts (p := isPreserved) (a := l.filter isPreserved)
      (b := (l.filter (!isPreserved ·)).drop ((l.filter (!isPreserved ·)).length - k))
      (fun msg hm => (mem_filter.1 hm).2) fun msg hm => (mem_filter.1 (mem_of_mem_drop hm)).2
    refine ⟨Faithful.order, fun h => ⟨h, hp, ?_, ?_⟩⟩
    · rw [ho]
      exact drop_suffix _ _
    · rw [length_append, length_drop]
      omega

/-- `n = 2`: the system message is put before the question that it follows -/
theorem system_last_reordered :
    let l : List Message := [{ role := "user" }, { role := "user" }, { role := "system" }]
    ¬ Faithful 2 l (truncateMessages 2 l) := by
  intro l h
  exact absurd (h.order.map Message.role) (by decide)

end AegisGate.PromptCompressor
