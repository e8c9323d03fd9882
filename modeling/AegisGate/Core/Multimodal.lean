import AegisGate.Core.Types

/-!
# The parts of a multimodal message

`rebuildMultimodalContent` puts a text back into an array of content parts, `extractMultimodalText`
reads it out again.  Over parts that are objects with a type, the text comes back and the other parts
stay as they are; an array without a text part gets none.
-/

namespace AegisGate

open List

/-- an object whose `type` is a string -/
def IsPart (part : Json) : Prop := ∃ l type, part = .obj l ∧ l.lookup "type" = some (.str type)

def isText (part : Json) : Bool := (isTextPart part).toOption == some true

section
variable {part : Json} {parts : List Json} {text : String}

lemma isTextPart_textPart : isTextPart (textPart text) = .ok true := rfl

lemma IsPart.isTextPart (h : IsPart part) : isTextPart part = .ok (isText part) := by
  obtain ⟨l, type, rfl, htype⟩ := h
  have hvalue : AegisGate.isTextPart (.obj l) = .ok (type == "text") := by
    simp [AegisGate.isTextPart, Json.isObject, Json.valueStr, htype, bind, Except.bind, pure, Except.pure]
  rw [isText, hvalue]
  cases hb : type == "text" <;> simp [Except.toOption]

/-- the parts as they are, with the text in the place of the first text part unless it is out already -/
lemma rebuildParts_spec (text : String) (hparts : ∀ p ∈ parts, IsPart p) (emitted : Bool) :
    ∃ out, rebuildParts text emitted parts = .ok (emitted || parts.any isText, out) ∧
      out.filter (!isText ·) = parts.filter (!isText ·) ∧
      out.filter isText = (if !emitted && parts.any isText then [textPart text] else []) ∧
      ∀ p ∈ out, isTextPart p = .ok (isText p) := by
  induction parts generalizing emitted with
  | nil => exact ⟨[], by simp [rebuildParts], rfl, by simp, by simp⟩
  | cons part parts ih =>
    have hpart := (hparts part mem_cons_self).isTextPart
    have ih := ih fun p hp => hparts p (mem_cons_of_mem part hp)
    have htext : isText (textPart text) := rfl
    cases hp : isText part with
    | true =>
      obtain ⟨out, hout, hrest, hone, hok⟩ := ih true
      refine ⟨if emitted then out else textPart text :: out, ?_, ?_, ?_, ?_⟩
      · simp [rebuildParts, hpart, hp, hout, bind, Except.bind, pure, Except.pure]
      · cases emitted <;> simp [htext, hp, hrest]
      · cases emitted <;> simp [htext, hp, hone]
      · cases emitted
        · simpa [htext, isTextPart_textPart] using hok
        · simpa using hok
    | false =>
      obtain ⟨out, hout, hrest, hone, hok⟩ := ih emitted
      refine ⟨part :: out, ?_, ?_, ?_, ?_⟩
      · simp [rebuildParts, hpart, hp, hout, bind, Except.bind, pure, Except.pure]
      · simp [hp, hrest]
      · simp [hp, hone]
      · simpa [hpart, hp] using hok

/-- only the text parts are read -/
lemma appendText_filter (h : ∀ p ∈ parts, isTextPart p = .ok (isText p)) (text : String) :
    appendText text parts = appendText text (parts.filter isText) := by
  induction parts generalizing text with
  | nil => rfl
  | cons part parts ih =>
    have hpart := h part mem_cons_self
    have ih := ih fun p hp => h p (mem_cons_of_mem part hp)
    cases hp : isText part with
    | true => simp [appendText, hpart, hp, bind, Except.bind, ih]
    | false => simp [appendText, hpart, hp, bind, Except.bind, ih]

/-- The text comes back, the other parts stay and there is one text part, exactly when there was one
before. -/
theorem rebuild_keeps_iff (hparts : ∀ p ∈ parts, IsPart p) (text : String) :
    (∃ out, rebuildMultimodalContent (.arr parts) text = .ok (.arr out) ∧
      extractMultimodalText (.arr out) = .ok text ∧
      out.filter (!isText ·) = parts.filter (!isText ·) ∧
      (out.filter isText).length = 1) ↔ ∃ p ∈ parts, isText p := by
  obtain ⟨out, hout, hrest, hone, hok⟩ := rebuildParts_spec text hparts false
  have hresult : rebuildMultimodalContent (.arr parts) text
      = .ok (.arr (if parts.any isText then out else insertedPairs text ++ out)) := by
    simp [rebuildMultimodalContent, hout, bind, Except.bind, pure, Except.pure]
  rw [hresult, ← any_eq_true]
  cases hany : parts.any isText with
  | true =>
    simp only [hany, Bool.not_false, Bool.and_self, if_true] at hone
    refine iff_of_true ⟨out, rfl, ?_, hrest, by rw [hone]; rfl⟩ rfl
    have hvalue : (textPart text).valueStr "text" "" = .ok text := rfl
    show appendText "" out = _
    rw [appendText_filter hok, hone]
    simp [appendText, isTextPart_textPart, hvalue, bind, Except.bind]
  | false =>
    refine iff_of_false ?_ Bool.false_ne_true
    rintro ⟨out', hout', -, -, hlen⟩
    have hpairs : (insertedPairs text).filter isText = [] := rfl
    cases hout'
    simp [hany, filter_append, hpairs, hone] at hlen

end

def imagePart : Json := .obj [("type", .str "image_url")]

theorem caption_rebuilt : ∃ out,
    rebuildMultimodalContent (.arr [imagePart, textPart "a"]) "b" = .ok (.arr out) ∧
      extractMultimodalText (.arr out) = .ok "b" ∧
      out.filter (!isText ·) = [imagePart, textPart "a"].filter (!isText ·) ∧
      (out.filter isText).length = 1 := by
  refine (rebuild_keeps_iff (fun p hp => ?_) "b").2 ⟨textPart "a", by simp, rfl⟩
  simp only [mem_cons, not_mem_nil, or_false] at hp
  rcases hp with rfl | rfl <;> exact ⟨_, _, rfl, rfl⟩

/-- an image alone: the text is lost in two arrays -/
theorem text_not_inserted :
    rebuildMultimodalContent (.arr [imagePart]) "hi"
        = .ok (.arr [.arr [.str "type", .str "text"], .arr [.str "text", .str "hi"], imagePart]) ∧
      extractMultimodalText
        (.arr [.arr [.str "type", .str "text"], .arr [.str "text", .str "hi"], imagePart]) = .ok "" :=
  ⟨rfl, rfl⟩

end AegisGate
