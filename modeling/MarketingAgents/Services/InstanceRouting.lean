import Mathlib.Data.Finset.Basic
import Mathlib.Data.List.Lex
import Mathlib.Data.List.Sort
import Mathlib.Data.Prod.Lex
import Mathlib.Data.String.Basic
import MarketingAgents.Domain.CanonicalJson
import MarketingAgents.Domain.Enums
import MarketingAgents.Domain.Validation

namespace MarketingAgents

/-! # Deterministic instance routing

The smallest set of enabled instances that covers every slot of a workflow, and
which of them takes which slot.
-/

/-- A stable identifier, refused under the code of the caller. -/
def requireStableId (value field code : String) : Except Rejection Unit :=
  match requireId value field with
  | .ok () => .ok ()
  | .error reason => reject code reason.message

def requirePositiveInt (value : Int) (field code : String) : Except Rejection Unit :=
  require (1 ≤ value) code (field ++ " must be a positive integer")

def requireIdTuple (values : List String) (field code : String) (allowEmpty : Bool) :
    Except Rejection Unit := do
  require (values ≠ [] ∨ allowEmpty = true) code (field ++ " must be a nonempty immutable tuple")
  require values.Nodup "ambiguous_workflow" (field ++ " may not contain duplicates")
  requireEach (requireStableId · field code) values

def requireCatalogHash (value code message : String) : Except Rejection Unit :=
  require ("catalog-sha256-v1:".toList <+: value.toList ∧
    digestText (value.toList.drop "catalog-sha256-v1:".toList.length)) code message

/-- One workflow role and its ordered template preferences. -/
structure RoutingSlot where
  key : String
  sourceOrder : Int
  templatePriorities : List String
  requiredCapabilityIds : List String
deriving DecidableEq

def RoutingSlot.validate (slot : RoutingSlot) : Except Rejection Unit := do
  requireStableId slot.key "routing slot key" "invalid_slot"
  requirePositiveInt slot.sourceOrder "routing slot source order" "invalid_slot"
  requireIdTuple slot.requiredCapabilityIds "routing slot required capabilities" "invalid_slot" true
  requireIdTuple slot.templatePriorities "routing slot template priorities" "invalid_slot" false

/-- Slots come in the order of their source, then of their keys. -/
def RoutingSlot.Before (left right : RoutingSlot) : Prop :=
  toLex (left.sourceOrder, left.key) ≤ toLex (right.sourceOrder, right.key)

instance : DecidableRel RoutingSlot.Before :=
  fun left right => inferInstanceAs
    (Decidable (toLex (left.sourceOrder, left.key) ≤ toLex (right.sourceOrder, right.key)))

/-- Trusted workflow-owned routing policy pinned to one catalog release. -/
structure WorkflowRoutingDefinition where
  workflowId : String
  workflowVersion : Int
  catalogContentHash : String
  eligibleTriggerKinds : List TriggerKind
  eligibleTargetTemplateIds : List String
  requiredSlots : List RoutingSlot
deriving DecidableEq

def maxRoutingSlots : Nat := 20

/-- A definition checks itself and puts its slots in order. -/
def WorkflowRoutingDefinition.create (definition : WorkflowRoutingDefinition) :
    Except Rejection WorkflowRoutingDefinition := do
  requireStableId definition.workflowId "workflow ID" "invalid_workflow"
  requirePositiveInt definition.workflowVersion "workflow version" "invalid_workflow"
  requireCatalogHash definition.catalogContentHash "invalid_catalog_hash"
    "workflow routing must pin a canonical compiled-catalog hash"
  require (definition.eligibleTriggerKinds ≠ [])
    "invalid_workflow" "eligible trigger kinds must be a nonempty immutable tuple"
  require definition.eligibleTriggerKinds.Nodup
    "ambiguous_workflow" "eligible trigger kinds may be declared only once"
  requireIdTuple definition.eligibleTargetTemplateIds "eligible target templates"
    "invalid_workflow" false
  require (definition.requiredSlots.length ≤ maxRoutingSlots)
    "routing_slot_limit_exceeded" "a workflow may declare at most 20 routing slots"
  require ((definition.requiredSlots.map (·.key)).Nodup ∧
    (definition.requiredSlots.map (·.sourceOrder)).Nodup)
    "ambiguous_workflow" "routing slot keys and source orders must be unique"
  return { definition with
    requiredSlots := definition.requiredSlots.insertionSort RoutingSlot.Before }

/-- Explicit trusted routing metadata. -/
structure RoutingRequest where
  targetInstanceId : String
  triggerId : String
  triggerSource : String
  triggerKind : TriggerKind
deriving DecidableEq

def RoutingRequest.validate (request : RoutingRequest) : Except Rejection Unit := do
  requireStableId request.targetInstanceId "target instance ID" "invalid_request"
  requireStableId request.triggerId "trigger ID" "invalid_request"
  requireStableId request.triggerSource "trigger source" "invalid_request"

structure RoutingTemplateSource where
  id : String
  displayOrder : Int
  allowedToolCapabilityIds : List String
  supportedTriggerTypes : List String
deriving DecidableEq

structure RoutingInstanceSource where
  id : String
  templateId : String
  displayOrder : Int
  enabled : Bool
  variantSourceOrdinal : Option Int
  configurationRevision : Int
deriving DecidableEq

structure TemplateSnapshot where
  id : String
  displayOrder : Int
  allowedCapabilities : Finset String
  supportedTriggers : Finset TriggerKind
deriving DecidableEq

structure InstanceSnapshot where
  id : String
  templateId : String
  displayOrder : Int
  enabled : Bool
  sourceOrdinal : Option Int
  configurationRevision : Int
deriving DecidableEq

def snapshotCapabilities (capabilityIds : List String) : Except Rejection (Finset String) := do
  require capabilityIds.Nodup "ambiguous_catalog" "catalog capability IDs must be unique"
  requireEach (requireStableId · "capability ID" "catalog_drift") capabilityIds
  return capabilityIds.toFinset

def parseTriggers : List String → Except Rejection (List TriggerKind)
  | [] => .ok []
  | first :: rest => do
      let trigger ← requireSome (TriggerKind.ofValue? first) "catalog_drift"
        "template has an unsupported trigger kind"
      let others ← parseTriggers rest
      return trigger :: others

/-- What remains to be checked of a template whose identifier is new. -/
def RoutingTemplateSource.snapshot (source : RoutingTemplateSource)
    (capabilityIds : Finset String) : Except Rejection TemplateSnapshot := do
  requirePositiveInt source.displayOrder "template display order" "catalog_drift"
  require source.allowedToolCapabilityIds.Nodup "ambiguous_catalog"
    "template capability allowlist must be unique"
  requireEach (requireStableId · "template capability ID" "catalog_drift")
    source.allowedToolCapabilityIds
  require (source.allowedToolCapabilityIds.toFinset ⊆ capabilityIds)
    "catalog_drift" "template allowlist references an unknown capability"
  let triggers ← parseTriggers source.supportedTriggerTypes
  require (triggers ≠ [] ∧ triggers.Nodup)
    "ambiguous_catalog" "template trigger support must be nonempty and unique"
  return {
    id := source.id
    displayOrder := source.displayOrder
    allowedCapabilities := source.allowedToolCapabilityIds.toFinset
    supportedTriggers := triggers.toFinset }

/-- What remains to be checked of an instance whose identifier is new. -/
def RoutingInstanceSource.snapshot (source : RoutingInstanceSource) (templateIds : Finset String) :
    Except Rejection InstanceSnapshot := do
  requireStableId source.templateId "instance template ID" "catalog_drift"
  require (source.templateId ∈ templateIds) "catalog_drift"
    "instance template is absent from the catalog"
  requirePositiveInt source.displayOrder "instance display order" "catalog_drift"
  requirePositiveInt source.configurationRevision "configuration revision" "catalog_drift"
  requireOptional (requirePositiveInt · "instance source ordinal" "catalog_drift")
    source.variantSourceOrdinal
  return {
    id := source.id
    templateId := source.templateId
    displayOrder := source.displayOrder
    enabled := source.enabled
    sourceOrdinal := source.variantSourceOrdinal
    configurationRevision := source.configurationRevision }

section

variable {σ τ : Type}

/-- Take the sources in turn, each under an identifier that none before it had. -/
def snapshotSources (identifier : σ → String) (field duplicate : String)
    (snapshot : σ → Except Rejection τ) : List String → List σ → Except Rejection (List τ)
  | _, [] => .ok []
  | known, source :: rest => do
      requireStableId (identifier source) field "catalog_drift"
      require (identifier source ∉ known) "ambiguous_catalog" duplicate
      let taken ← snapshot source
      let others ← snapshotSources identifier field duplicate snapshot
        (identifier source :: known) rest
      return taken :: others

end

def snapshotTemplates (sources : List RoutingTemplateSource) (capabilityIds : Finset String) :
    Except Rejection (List TemplateSnapshot) :=
  snapshotSources (·.id) "template ID" "catalog template IDs must be unique"
    (·.snapshot capabilityIds) [] sources

def snapshotInstances (sources : List RoutingInstanceSource) (templates : List TemplateSnapshot) :
    Except Rejection (List InstanceSnapshot) :=
  snapshotSources (·.id) "instance ID" "catalog instance IDs must be unique"
    (·.snapshot (templates.map (·.id)).toFinset) [] sources

structure DeterministicInstanceRouter where
  catalogContentHash : String
  capabilityIds : Finset String
  templates : List TemplateSnapshot
  instances : List InstanceSnapshot
deriving DecidableEq

def DeterministicInstanceRouter.create (catalogContentHash : String)
    (templates : List RoutingTemplateSource)
    (instances : List RoutingInstanceSource) (capabilityIds : List String) :
    Except Rejection DeterministicInstanceRouter := do
  requireCatalogHash catalogContentHash "invalid_catalog_hash" "catalog hash is not canonical"
  let capabilityIds ← snapshotCapabilities capabilityIds
  let templates ← snapshotTemplates templates capabilityIds
  let instances ← snapshotInstances instances templates
  return { catalogContentHash, capabilityIds, templates, instances }

abbrev InstanceOrder := Int ×ₗ Int ×ₗ String

def InstanceSnapshot.order (snapshot : InstanceSnapshot) : InstanceOrder :=
  toLex (snapshot.displayOrder, toLex (snapshot.sourceOrdinal.getD 0, snapshot.id))

def InstanceSnapshot.Before (left right : InstanceSnapshot) : Prop := left.order ≤ right.order

instance : DecidableRel InstanceSnapshot.Before :=
  fun left right => inferInstanceAs (Decidable (left.order ≤ right.order))

section

variable {α κ : Type} [LinearOrder κ]

/-- The first element whose key no other undercuts. -/
def minBy (key : α → κ) : List α → Option α
  | [] => none
  | first :: rest =>
    some (rest.foldl (fun best next => if key next < key best then next else best) first)

end

/-- What routing reads of a router: lookups, and the instances in their order. -/
structure RoutingCatalog where
  catalogContentHash : String
  capabilityIds : Finset String
  template? : String → Option TemplateSnapshot
  instance? : String → Option InstanceSnapshot
  orderedInstances : List InstanceSnapshot

def DeterministicInstanceRouter.catalog (router : DeterministicInstanceRouter) :
    RoutingCatalog where
  catalogContentHash := router.catalogContentHash
  capabilityIds := router.capabilityIds
  template? id := router.templates.find? fun template => template.id = id
  instance? id := router.instances.find? fun snapshot => snapshot.id = id
  orderedInstances := router.instances.insertionSort InstanceSnapshot.Before

structure CoverState where
  selection : List InstanceSnapshot
  assignmentPriorities : List Nat
deriving DecidableEq

def unassignedPriority : Nat := 2 ^ 31 - 1

def selectionOrder (selection : List InstanceSnapshot) : List InstanceOrder :=
  selection.map (·.order)

/-- Future candidates cannot make the right state win a tie. -/
def CoverState.dominates (left right : CoverState) : Bool :=
  (left.assignmentPriorities.zip right.assignmentPriorities).all (fun pair => pair.1 ≤ pair.2) &&
    decide (selectionOrder left.selection ≤ selectionOrder right.selection)

/-- Keep the smallest selections of a mask that no other one dominates. -/
def retainExactState (states : List (Nat × List CoverState)) (mask : Nat) (proposed : CoverState) :
    List (Nat × List CoverState) :=
  let store (kept : List CoverState) :=
    states.map fun entry => if entry.1 = mask then (mask, kept) else entry
  match states.lookup mask with
  | none => states ++ [(mask, [proposed])]
  | some current =>
      let minimumCount := (current.head?.map (·.selection.length)).getD 0
      if minimumCount < proposed.selection.length then states
      else if proposed.selection.length < minimumCount then store [proposed]
      else if current.any (·.dominates proposed) then states
      else store ((current.filter fun item => !proposed.dominates item) ++ [proposed])

structure RoutingAssignment where
  slotKey : String
  instanceId : String
  templateId : String
  requiredCapabilityIds : List String
deriving DecidableEq

namespace RoutingCatalog

variable (catalog : RoutingCatalog)

def validateDefinitionReferences (definition : WorkflowRoutingDefinition) :
    Except Rejection Unit := do
  requireEach (fun templateId => require (catalog.template? templateId).isSome
    "catalog_drift" "workflow target template is absent from the catalog")
      definition.eligibleTargetTemplateIds
  requireEach (fun slot : RoutingSlot => do
    require (slot.requiredCapabilityIds.toFinset ⊆ catalog.capabilityIds)
      "missing_capability" "routing slot requires a capability absent from the catalog"
    require (∀ templateId ∈ slot.templatePriorities, (catalog.template? templateId).isSome)
      "catalog_drift" "routing slot references a template absent from the catalog")
        definition.requiredSlots

def covers (snapshot : InstanceSnapshot) (slot : RoutingSlot) : Bool :=
  (catalog.template? snapshot.templateId).any fun template =>
    decide (snapshot.templateId ∈ slot.templatePriorities) &&
      decide (slot.requiredCapabilityIds.toFinset ⊆ template.allowedCapabilities)

/-- One bit for each slot that an instance can take. -/
def coverageMask (snapshot : InstanceSnapshot) (slots : List RoutingSlot) : Nat :=
  slots.zipIdx.foldl (fun mask slot => if catalog.covers snapshot slot.1 then mask ||| 1 <<< slot.2
    else mask) 0

def priorityVector (snapshot : InstanceSnapshot) (slots : List RoutingSlot) : List Nat :=
  slots.map fun slot =>
    if catalog.coverageMask snapshot [slot] = 1 then
      slot.templatePriorities.idxOf snapshot.templateId
    else unassignedPriority

/-- Try one more candidate with every state that was known before it. -/
def extendStates (slots : List RoutingSlot) (states : List (Nat × List CoverState))
    (candidate : InstanceSnapshot) : List (Nat × List CoverState) :=
  states.foldl (fun current entry =>
    let combined := entry.1 ||| catalog.coverageMask candidate slots
    if combined = entry.1 then current
    else entry.2.foldl (fun current state => retainExactState current combined {
      selection := state.selection ++ [candidate]
      assignmentPriorities :=
        state.assignmentPriorities.zipWith min (catalog.priorityVector candidate slots) })
      current) states

def minimumCover (target : InstanceSnapshot) (targetMask fullMask : Nat)
    (candidates : List InstanceSnapshot)
    (slots : List RoutingSlot) : Except Rejection (List InstanceSnapshot) :=
  if targetMask = fullMask then .ok []
  else do
    let states := candidates.foldl (catalog.extendStates slots)
      [(targetMask,
        [{ selection := [], assignmentPriorities := catalog.priorityVector target slots }])]
    let finalStates ← requireSome (states.lookup fullMask)
      "missing_capability" "enabled eligible instances cannot cover every required routing slot"
    let finalState ← requireSome (minBy (fun state : CoverState =>
        toLex (state.assignmentPriorities, selectionOrder state.selection)) finalStates)
      "ValueError" "min() iterable argument is empty"
    return finalState.selection.insertionSort InstanceSnapshot.Before

def assignmentKey (slot : RoutingSlot) (snapshot : InstanceSnapshot) : Nat ×ₗ InstanceOrder :=
  toLex (slot.templatePriorities.idxOf snapshot.templateId, snapshot.order)

def assignSlots (selected : List InstanceSnapshot) :
    List RoutingSlot → Except Rejection (List RoutingAssignment)
  | [] => .ok []
  | slot :: rest => do
      let chosen ← requireSome
        (minBy (assignmentKey slot) (selected.filter fun item =>
          catalog.coverageMask item [slot] = 1))
        "missing_capability" "selected instances do not cover a routing slot"
      let others ← assignSlots selected rest
      return {
        slotKey := slot.key
        instanceId := chosen.id
        templateId := chosen.templateId
        requiredCapabilityIds := slot.requiredCapabilityIds } :: others

end RoutingCatalog

/-- Immutable configuration identity retained by a deterministic plan. -/
structure SelectedInstanceSnapshot where
  instanceId : String
  templateId : String
  configurationRevision : Int
  displayOrder : Int
  sourceOrdinal : Option Int
deriving DecidableEq

def InstanceSnapshot.publicSnapshot (snapshot : InstanceSnapshot) : SelectedInstanceSnapshot where
  instanceId := snapshot.id
  templateId := snapshot.templateId
  configurationRevision := snapshot.configurationRevision
  displayOrder := snapshot.displayOrder
  sourceOrdinal := snapshot.sourceOrdinal

/-- The selected instances, the target first, and the assignments of all slots. -/
structure RoutingDecision where
  selectedInstances : List SelectedInstanceSnapshot
  assignments : List RoutingAssignment
deriving DecidableEq

/-- Select and assign, or refuse with the first reason found. -/
def RoutingCatalog.decide (catalog : RoutingCatalog) (request : RoutingRequest)
    (definition : WorkflowRoutingDefinition) : Except Rejection RoutingDecision := do
  require (definition.catalogContentHash = catalog.catalogContentHash)
    "catalog_drift" "workflow and router catalog snapshots do not match"
  require (request.triggerKind ∈ definition.eligibleTriggerKinds)
    "unsupported_trigger" "workflow does not support the requested trigger kind"
  catalog.validateDefinitionReferences definition
  let target ← requireSome (catalog.instance? request.targetInstanceId)
    "unsupported_target" "requested target instance does not exist"
  let targetTemplate ← requireSome (catalog.template? target.templateId) "KeyError"
    target.templateId
  require target.enabled "unsupported_target" "requested target instance is disabled"
  require (target.templateId ∈ definition.eligibleTargetTemplateIds)
    "unsupported_target" "target template is not eligible for this workflow"
  require (request.triggerKind ∈ targetTemplate.supportedTriggers)
    "unsupported_trigger" "target template does not support the trigger kind"
  let slots := definition.requiredSlots
  let candidates := catalog.orderedInstances.filter fun snapshot =>
    snapshot.id ≠ target.id && snapshot.enabled && catalog.coverageMask snapshot slots ≠ 0
  let additional ← catalog.minimumCover target (catalog.coverageMask target slots)
    (1 <<< slots.length - 1) candidates slots
  let assignments ← catalog.assignSlots (target :: additional) slots
  return { selectedInstances := (target :: additional).map (·.publicSnapshot), assignments }

section

variable {φ : Type}

def pythonStrings (values : List String) : PythonValue φ := .sequence (values.map .str)

def pythonOrdinal : Option Int → PythonValue φ
  | none => .null
  | some ordinal => .int ordinal

/-- Everything that the hash of a decision binds. -/
def RoutingDecision.semanticPayload (decision : RoutingDecision) (request : RoutingRequest)
    (definition : WorkflowRoutingDefinition) : PythonValue φ :=
  .mapping [
    (some "version", .int 1),
    (some "workflow", .mapping [
      (some "id", .str definition.workflowId),
      (some "version", .int definition.workflowVersion),
      (some "catalog_content_hash", .str definition.catalogContentHash)]),
    (some "request", .mapping [
      (some "target_instance_id", .str request.targetInstanceId),
      (some "trigger_id", .str request.triggerId),
      (some "trigger_source", .str request.triggerSource),
      (some "trigger_kind", .str request.triggerKind.value)]),
    (some "slots", .sequence (definition.requiredSlots.map fun slot => .mapping [
      (some "key", .str slot.key),
      (some "source_order", .int slot.sourceOrder),
      (some "required_capability_ids", pythonStrings slot.requiredCapabilityIds),
      (some "template_priorities", pythonStrings slot.templatePriorities)])),
    (some "selected_instances", .sequence (decision.selectedInstances.map fun item => .mapping [
      (some "instance_id", .str item.instanceId),
      (some "template_id", .str item.templateId),
      (some "configuration_revision", .int item.configurationRevision),
      (some "display_order", .int item.displayOrder),
      (some "source_ordinal", pythonOrdinal item.sourceOrdinal)])),
    (some "assignments", .sequence (decision.assignments.map fun item => .mapping [
      (some "slot_key", .str item.slotKey),
      (some "instance_id", .str item.instanceId),
      (some "template_id", .str item.templateId),
      (some "required_capability_ids", pythonStrings item.requiredCapabilityIds)]))]

end

def routingHashDomain : ByteArray :=
  (String.ofList ("marketing-agents:deterministic-instance-routing:v1".toList ++
    [Char.ofNat 0])).toByteArray

structure RoutingResult where
  workflowId : String
  workflowVersion : Int
  catalogContentHash : String
  targetInstanceId : String
  selectedInstances : List SelectedInstanceSnapshot
  assignments : List RoutingAssignment
  semanticHash : String
deriving DecidableEq

section

variable {φ : Type} (text : TextSupport) (numbers : NumberSupport φ)
  (sha256Hex : ByteArray → String)

/-- The bytes that the hash of a decision is taken of. -/
def RoutingDecision.preimage (decision : RoutingDecision) (request : RoutingRequest)
    (definition : WorkflowRoutingDefinition) : Except Rejection ByteArray := do
  let payload ← canonicalJsonBytes text numbers (decision.semanticPayload request definition)
  return routingHashDomain ++ payload

/-- The globally minimal additional set under deterministic tie breaks. -/
def DeterministicInstanceRouter.route (router : DeterministicInstanceRouter)
    (request : RoutingRequest)
    (definition : WorkflowRoutingDefinition) : Except Rejection RoutingResult := do
  let decision ← router.catalog.decide request definition
  let preimage ← decision.preimage text numbers request definition
  return {
    workflowId := definition.workflowId
    workflowVersion := definition.workflowVersion
    catalogContentHash := router.catalogContentHash
    targetInstanceId := request.targetInstanceId
    selectedInstances := decision.selectedInstances
    assignments := decision.assignments
    semanticHash := sha256Hex preimage }

end

end MarketingAgents
