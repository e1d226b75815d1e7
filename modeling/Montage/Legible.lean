import Montage.Decimal.Style

/-!
# Numbers in messages
-/

namespace Montage

/-- Numbers that can stand in a message. -/
class Legible (α : Type) where
  text : α → String

instance : Legible Float := ⟨Decimal.messageText⟩

end Montage
