import Montage.Media
import Montage.Wire.Number

/-!
# Assets and libraries as documents
-/

namespace Montage

open Json (str)

/-- A medium's name. -/
def Medium.toJson (m : Medium) : Json := str m.wireName

/-- The medium with the given name. -/
def Medium.ofJson? (j : Json) : Option Medium :=
  match j.caseName? with
  | some "video" => some .video
  | some "audio" => some .audio
  | _ => none

variable {α : Type} [WireNumber α]

namespace Asset

/-- The document of an asset. -/
def toJson (asset : Asset α) : Json :=
  .record [("id", str asset.id), ("filename", str asset.fileName), ("url", str asset.url),
    ("type", asset.medium.toJson), ("duration", WireNumber.toJson asset.duration)]

/-- Reads the document of an asset. -/
def ofJson? (j : Json) : Option (Asset α) := do
  let fields ← j.fields? ["id", "filename", "url", "type", "duration"]
  return {
    id := ← fields.need "id" Json.text?
    fileName := ← fields.need "filename" Json.text?
    url := ← fields.need "url" Json.text?
    medium := ← fields.need "type" Medium.ofJson?
    duration := ← fields.need "duration" WireNumber.ofJson? }

end Asset

namespace Library

/-- The document of a library. -/
def toJson (library : Library α) : Json :=
  .record [("assets", .array (library.assets.map Asset.toJson))]

/-- Reads the document of a library. -/
def ofJson? (j : Json) : Option (Library α) := do
  let fields ← j.fields? ["assets"]
  return ⟨← fields.need "assets" (Json.list? Asset.ofJson?)⟩

end Library

end Montage
