import Mathlib.Data.List.Sort
import Mathlib.Data.String.Basic
import MarketingAgents.Domain.Enums
import MarketingAgents.Domain.Validation

namespace MarketingAgents

/-! # Webhook receipts -/

/-- The work item and the run that one bound instance got from a source event. -/
structure WebhookReceiptDelivery where
  instanceId : String
  workItemId : String
  runId : String
deriving DecidableEq

/-- One authenticated source event with its complete fan-out. -/
structure WebhookReceipt where
  id : String
  source : String
  eventId : String
  triggerId : String
  bodyDigest : String
  digestKeyVersion : String
  mapperVersion : String
  receivedAt : Time
  deliveries : List WebhookReceiptDelivery
deriving DecidableEq

def webhookDigestKeyVersionPrefix : String := "webhook-body-hmac-sha256-v1:"

def maxWebhookReceiptDeliveries : Nat := 43

namespace WebhookReceiptDelivery

def check (delivery : WebhookReceiptDelivery) : Except Rejection Unit := do
  requireId delivery.instanceId "webhook receipt delivery instance ID"
  requireId delivery.workItemId "webhook receipt delivery WorkItem ID"
  requireId delivery.runId "webhook receipt delivery Run ID"

/-- The order of instance identifiers. -/
def Before (left right : WebhookReceiptDelivery) : Prop := left.instanceId ≤ right.instanceId

instance : DecidableRel Before :=
  fun left right => inferInstanceAs (Decidable (left.instanceId ≤ right.instanceId))

instance : IsTrans WebhookReceiptDelivery Before := ⟨fun left middle right =>
  le_trans (a := left.instanceId) (b := middle.instanceId) (c := right.instanceId)⟩

instance : Std.Total Before := ⟨fun left right => le_total left.instanceId right.instanceId⟩

end WebhookReceiptDelivery

namespace WebhookReceipt

variable (receipt : WebhookReceipt)

def check : Except Rejection Unit := do
  requireId receipt.id "webhook receipt ID"
  requireId receipt.source "webhook receipt source"
  requireId receipt.eventId "webhook receipt event ID"
  requireId receipt.triggerId "webhook receipt trigger ID"
  requireId receipt.mapperVersion "webhook receipt mapper version"
  requireDigest receipt.bodyDigest "webhook receipt body digest"
  require (webhookDigestKeyVersionPrefix.toList <+: receipt.digestKeyVersion.toList ∧
      digestText (receipt.digestKeyVersion.toList.drop webhookDigestKeyVersionPrefix.length))
        "ValueError"
    "webhook receipt digest key version is invalid"

/-- The bounds and the distinct identities of the deliveries. -/
def checkDeliveries : Except Rejection Unit := do
  require (1 ≤ receipt.deliveries.length ∧ receipt.deliveries.length ≤
    maxWebhookReceiptDeliveries) "ValueError"
    "webhook receipt deliveries must be one bounded immutable tuple"
  require ((receipt.deliveries.map (·.instanceId)).Nodup ∧
    (receipt.deliveries.map (·.workItemId)).Nodup ∧
      (receipt.deliveries.map (·.runId)).Nodup) "ValueError"
        "webhook receipt delivery identities must be unique"

/-- Every receipt is built through these checks, which leave its deliveries in
the order of their instances. -/
def build : Except Rejection WebhookReceipt := do
  receipt.check
  receipt.checkDeliveries
  return { receipt with
    deliveries := receipt.deliveries.insertionSort WebhookReceiptDelivery.Before }

variable {receipt} {built : WebhookReceipt}

theorem build_ok : receipt.build = .ok built ↔ receipt.check = .ok () ∧
    receipt.checkDeliveries = .ok () ∧
    { receipt with deliveries := receipt.deliveries.insertionSort WebhookReceiptDelivery.Before } =
      built := by
  simp only [build, bind_ok, pure_ok]
  constructor
  · rintro ⟨_, checked, _, bounded, same⟩
    exact ⟨checked, bounded, same⟩
  · rintro ⟨checked, bounded, same⟩
    exact ⟨(), checked, (), bounded, same⟩

theorem checkDeliveries_ok : receipt.checkDeliveries = .ok () ↔
    (1 ≤ receipt.deliveries.length ∧ receipt.deliveries.length ≤ maxWebhookReceiptDeliveries) ∧
      (receipt.deliveries.map (·.instanceId)).Nodup ∧
      (receipt.deliveries.map (·.workItemId)).Nodup ∧
      (receipt.deliveries.map (·.runId)).Nodup := by
  simp only [checkDeliveries, bind_ok, require_ok]
  constructor
  · rintro ⟨_, bounded, distinct⟩
    exact ⟨bounded, distinct⟩
  · rintro ⟨bounded, distinct⟩
    exact ⟨(), bounded, distinct⟩

theorem build_built (accepted : receipt.build = .ok built) : built.build = .ok built := by
  obtain ⟨checked, bounded, rfl⟩ := build_ok.mp accepted
  obtain ⟨length, instances, works, runs⟩ := checkDeliveries_ok.mp bounded
  have permuted := List.perm_insertionSort WebhookReceiptDelivery.Before receipt.deliveries
  refine build_ok.mpr ⟨checked, checkDeliveries_ok.mpr ⟨?_, ?_, ?_, ?_⟩, ?_⟩
  · simpa [permuted.length_eq] using length
  · exact (permuted.map _).nodup_iff.mpr instances
  · exact (permuted.map _).nodup_iff.mpr works
  · exact (permuted.map _).nodup_iff.mpr runs
  · simp only [(List.pairwise_insertionSort WebhookReceiptDelivery.Before _).insertionSort_eq]

end WebhookReceipt

end MarketingAgents
