import MarketingAgents.Services.CursorGuarantees

namespace MarketingAgents

open Library
open Library.JsonText

/-! # The length of page cursors

The cursors over creation fit the limit that their own queries put on a cursor.
-/

section

variable {φ : Type} {support : CursorSupport φ}

/-- Digests of the usual length. -/
def CursorSupport.FullDigests (support : CursorSupport φ) : Prop :=
  ∀ message, (support.sha256 message).toList.length = 64

end

end MarketingAgents
