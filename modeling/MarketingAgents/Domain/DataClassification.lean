import Mathlib.Data.Nat.Basic

namespace MarketingAgents

/-- How far content may travel, from the least to the most protected. -/
inductive DataClassification where
  | «public»
  | internal
  | personal
  | sensitive
  | secret
deriving DecidableEq

def DataClassification.value : DataClassification → String
  | «public» => "public"
  | internal => "internal"
  | personal => "personal"
  | sensitive => "sensitive"
  | secret => "secret"

end MarketingAgents
