import Interchain.Fields

/-! # Envelopes

The envelope of a failure says which resource and operation failed and why, and may carry context
and a cause.
-/

namespace Interchain

structure Envelope (α : Type) where
  resource : Text
  operation : Text
  /-- The broad category. -/
  type : Text
  message : Text
  context : Option (List (Text × α))
  cause : α

namespace Envelope

/-- The category of every failure raised here. -/
def validation : Text := Text.ofString "VALIDATION"

end Envelope

end Interchain
