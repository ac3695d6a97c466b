import Tagwise.Js.Text

namespace Tagwise.Js

/-- What `JSON.parse` makes of a text. A number is known by the text that it converts to. -/
inductive Json
  | null
  | bool (b : Bool)
  | number (text : JsString)
  | string (s : JsString)
  | array (elements : List Json)
  | object (fields : List (JsString × Json))

def Json.isNull : Json → Bool
  | .null => true
  | _ => false

/-- A property of its own; a key that is given twice counts where it comes last. -/
def lastField (key : JsString) : List (JsString × Json) → Option Json
  | [] => none
  | (name, value) :: fields =>
    (lastField key fields).or (if name = key then some value else none)

/-- `value?.key`, `undefined` being `none`, for a key that no prototype has. -/
def property (key : JsString) : Option Json → Option Json
  | some (.object fields) => lastField key fields
  | _ => none

/-- `value ?? other`. -/
def coalesce (other : Json) : Option Json → Json
  | none | some .null => other
  | some value => value

mutual

/-- `ToString`, or its `TypeError`: a parsed object has no method of its own, so that one with a
`toString` of its own has none to convert it. -/
def Json.toText : Json → Option JsString
  | .null => some (js "null")
  | .bool b => some (if b then js "true" else js "false")
  | .number text => some text
  | .string s => some s
  | .array elements => (elementTexts elements).map (List.intercalate (js ","))
  | .object fields =>
    if (lastField (js "toString") fields).isSome then none else some (js "[object Object]")

/-- What `join` puts the commas between: no text for `null`. -/
def elementTexts : List Json → Option (List JsString)
  | [] => some []
  | element :: elements =>
    (if element.isNull then some [] else element.toText).bind (fun text =>
      (elementTexts elements).map (text :: ·))

end

/-- In an array or an array inside it, or as it is: an object with a `toString` of its own. -/
inductive HidesToString : Json → Prop
  | object {fields : List (JsString × Json)} {value : Json}
      (own : lastField (js "toString") fields = some value) : HidesToString (.object fields)
  | array {elements : List Json} {element : Json} (mem : element ∈ elements)
      (hides : HidesToString element) : HidesToString (.array elements)

mutual

theorem Json.toText_eq_none : ∀ value : Json, value.toText = none ↔ HidesToString value
  | .null | .bool _ | .number _ | .string _ => by
    constructor
    · intro h
      cases h
    · intro h
      cases h
  | .array elements => by
    rw [Json.toText, Option.map_eq_none_iff, elementTexts_eq_none elements]
    constructor
    · intro h
      obtain ⟨element,hmem,hhides⟩ := h
      exact .array hmem hhides
    · intro h
      cases h with
      | array hmem hhides => exact ⟨_,hmem,hhides⟩
  | .object fields => by
    rw [Json.toText]
    cases hown : lastField (js "toString") fields with
    | some value => exact ⟨fun _ => .object hown,fun _ => rfl⟩
    | none =>
      refine ⟨fun h => (by cases h),fun h => ?_⟩
      cases h with
      | object own => cases hown.symm.trans own

theorem elementTexts_eq_none : ∀ elements : List Json,
    elementTexts elements = none ↔ ∃ element ∈ elements, HidesToString element
  | [] => by simp [elementTexts]
  | element :: elements => by
    have htext := Json.toText_eq_none element
    have hrest := elementTexts_eq_none elements
    have hcell : (if element.isNull then some [] else element.toText) = none ↔
        HidesToString element := by
      cases element with
      | null => exact ⟨fun h => (by cases h),fun h => (by cases h)⟩
      | _ => exact htext
    rw [elementTexts, List.exists_mem_cons_iff, ← hcell, ← hrest]
    cases (if element.isNull then some [] else element.toText) with
    | none => simp
    | some text => simp

end

end Tagwise.Js
