import Mathlib
import MarketingAgents.Domain.Enums

namespace MarketingAgents

inductive RetryBackoff where
  | none
  | boundedExponential
deriving DecidableEq, Repr

/-- The durable counter family consumed by one planned operation. -/
inductive AttemptKind where
  | model
  | tool
  | noCall
deriving DecidableEq, Repr

structure RateLimitPolicySnapshot where
  key : String
  maxCalls : Nat
  windowSeconds : Nat
deriving DecidableEq

structure StepRuntimePolicy where
  operationKey : String
  attemptKind : AttemptKind
  maxAttempts : Nat
  backoff : RetryBackoff
  stepSeconds : Nat
  rateLimit : RateLimitPolicySnapshot
deriving DecidableEq

/-- The template's timeout, capped by the timeout of the connector contract. -/
def effectiveCallTimeoutSeconds (policy : StepRuntimePolicy)
    (connectorTimeoutSeconds : Option Nat) : Nat :=
  match connectorTimeoutSeconds with
  | none => policy.stepSeconds
  | some timeoutSeconds => min policy.stepSeconds timeoutSeconds

/-- The fixed retry schedule: one second, two seconds and so on, capped at a minute. -/
def boundedRetryDelaySeconds (backoff : RetryBackoff) (nextAttemptNumber : Nat) : Nat :=
  match backoff with
  | .none => 0
  | .boundedExponential => min (2 ^ (nextAttemptNumber - 2)) 60

/-- The epoch-aligned start of the rate window that contains an instant. -/
def fixedWindowStart (value : Time) (windowSeconds : Nat) : Time :=
  value / seconds windowSeconds * seconds windowSeconds

end MarketingAgents
