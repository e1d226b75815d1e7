import Montage.Text.Path

/-!
# Media

The assets that clips play, and the library that holds them.
-/

namespace Montage

/-! ## Kinds -/

/-- What a piece of media carries. -/
inductive Medium
  | video
  | audio
deriving DecidableEq, Repr, Inhabited

namespace Medium

/-- The file extensions of video containers. -/
def videoExtensions : List String :=
  ["mp4", "mov", "avi"]

/-- What a file of the given name carries: all that is no known video container is sound. -/
def ofFileName (name : String) : Medium :=
  match Text.Path.extension? name with
  | some extension =>
      if videoExtensions.contains (extension.map Char.toLower) then .video else .audio
  | none => .audio

/-- The kind as messages name it. -/
def label : Medium → String
  | .video => "Video"
  | .audio => "Audio"

/-- The kind as documents name it. -/
def wireName : Medium → String
  | .video => "video"
  | .audio => "audio"

end Medium

/-! ## Assets -/

/-- Names an asset. -/
abbrev AssetId := String

/-- A piece of media that the render service holds. -/
structure Asset (α : Type) where
  id : AssetId
  fileName : String
  /-- Where the service offers it, relative to the service. -/
  url : String
  medium : Medium
  duration : α
deriving DecidableEq, Repr

namespace Asset

variable {α : Type}

/--
The path under which the render service finds the media: the asset's place below the media root,
without the query that a browser cache is given.
-/
def sourcePath (asset : Asset α) (mediaRoot : String) : String :=
  let path := Text.trimLeft '/' (String.ofList (asset.url.toList.takeWhile (· ≠ '?')))
  if mediaRoot = "" then path else Text.trimRight '/' mediaRoot ++ "/" ++ path

end Asset

/-! ## The library -/

/-- The assets at hand, in the order of their first registration. -/
structure Library (α : Type) where
  assets : List (Asset α)
deriving DecidableEq, Repr

namespace Library

variable {α : Type}

/-- A library without assets. -/
def empty : Library α := ⟨[]⟩

/-- The first asset with the given id. -/
def find? (library : Library α) (id : AssetId) : Option (Asset α) :=
  library.assets.find? (·.id = id)

/-- Puts an asset into the first place that holds its id, or at the end. -/
def register (library : Library α) (asset : Asset α) : Library α :=
  ⟨place library.assets⟩
where
  place : List (Asset α) → List (Asset α)
    | [] => [asset]
    | held :: rest => if held.id = asset.id then asset :: rest else held :: place rest

/-- The number of assets. -/
def size (library : Library α) : Nat :=
  library.assets.length

end Library

end Montage
