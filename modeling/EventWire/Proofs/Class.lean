import EventWire.Class.Basic

/-!
# What a class reads

Whatever it reads, a class makes an instance of itself of it (`isInstance_of_ofJson`,
`isInstance_of_ofJsonValue`, `isInstance_of_ofXml`), or nothing. If trees of JSON are
instances of a class, it writes them as they are (`toJson_of_isInstance`) and reads JSON as any
reader does (`ofJson_eq_ok_json`).
-/

namespace EventWire.PayloadClass

variable {k : PayloadClass} {s : String} {v : Value}

/-- **What a class reads from JSON is an instance of it.** -/
theorem isInstance_of_ofJson (h : k.ofJson s = .ok v) : k.isInstance v = true := by
  unfold ofJson at h
  split at h
  · next w hw =>
    cases h
    exact decide_eq_true (k.readOnly.readJson hw)
  · cases h

/-- **What a class reads from a JSON tree is an instance of it.** -/
theorem isInstance_of_ofJsonValue {j : Json} (h : k.ofJsonValue j = .ok v) :
    k.isInstance v = true := by
  unfold ofJsonValue at h
  split at h
  · next w hw =>
    cases h
    exact decide_eq_true (k.readOnly.ofJson hw)
  · cases h

/-- **What a class reads from XML is an instance of it.** -/
theorem isInstance_of_ofXml (h : k.ofXml s = .ok v) : k.isInstance v = true := by
  unfold ofXml at h
  split at h
  · next w hw =>
    cases h
    exact decide_eq_true (k.readOnly.readXml hw)
  · cases h

section Trees

variable {j : Json} (hinstance : k.isInstance (.json j) = true)

include hinstance

/-- There is one way to write and read trees of JSON, whatever the class is called. -/
theorem toConverters_of_isInstance : k.toConverters = Shape.json.converters k.label :=
  k.shaped (of_decide_eq_true hinstance).symm

/-- **A class of which JSON is an instance writes JSON as it is.** -/
theorem toJson_of_isInstance : k.toJson (.json j) = .ok j.print := by
  rw [toJson, if_pos hinstance, toConverters_of_isInstance hinstance]
  rfl

/-- **A class of which JSON is an instance reads JSON as any reader does.** -/
theorem ofJson_eq_ok_json : k.ofJson s = .ok (.json j) ↔ Json.parse? s = some j := by
  have hread : k.readJson? s = (Json.parse? s).map .json := by
    rw [toConverters_of_isInstance hinstance, Json.parse?, Option.map_bind]
    rfl
  rw [ofJson, hread]
  cases Json.parse? s with
  | none => exact ⟨fun h => (nomatch h), fun h => (nomatch h)⟩
  | some u => exact ⟨fun h => by cases h; rfl, fun h => by cases h; rfl⟩

end Trees

end EventWire.PayloadClass
