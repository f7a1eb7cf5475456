import Mathlib
import MarketingAgents.Domain.CanonicalForm
import MarketingAgents.Domain.PolicyHash
import MarketingAgents.Library.Machine
import MarketingAgents.Library.Table

namespace MarketingAgents.DurableMock

open Library

/-! # Durable receipts of mock connector writes

A call looks its idempotency key up in one transaction and inserts its receipt
in another. The receipts have one key each, one external action and one receipt
id; retention erases the metadata of a receipt.
-/

variable {φ : Type}

def EXTERNAL_CONNECTOR_FAMILIES : List String :=
  ["social", "newsletter", "crm", "cms", "events", "community", "spreadsheet", "fulfillment"]

def MOCK_CONNECTOR_DOMAIN : ByteArray := "marketing-agents:mock-connector:v1\x00".toByteArray

structure ConnectorWriteResult (φ : Type) where
  receiptId : String
  status : String
  safeMetadata : List (Option String × PythonValue φ)

def scalarItem : PythonValue φ → Bool
  | .null | .bool _ | .int _ | .float _ | .str _ => true
  | .mapping _ | .sequence _ | .other _ => false

/-- The checks of the strict result model. -/
def ConnectorWriteResult.build (receiptId status : String)
    (safeMetadata : List (Option String × PythonValue φ)) :
    Except Rejection (ConnectorWriteResult φ) := do
  require (1 ≤ receiptId.length ∧ receiptId.length ≤ 240) "ValidationError" "receipt_id"
  require (1 ≤ status.length ∧ status.length ≤ 100) "ValidationError" "status"
  require (safeMetadata.length ≤ 128 ∧ safeMetadata.all fun member => scalarItem member.2)
    "ValidationError" "safe_metadata"
  return { receiptId, status, safeMetadata }

def ConnectorWriteResult.modelDump (result : ConnectorWriteResult φ) : PythonValue φ :=
  .record [("receipt_id", .str result.receiptId), ("status", .str result.status),
    ("safe_metadata", .mapping result.safeMetadata)]

/-- What a call names. -/
structure RecordArguments where
  externalActionId : String
  bindingId : String
  idempotencyKey : String
  actionHash : String
  capabilityId : String
  connectorFamily : String
  providerVersion : String

def validProviderVersion (text : TextSupport) (version : String) : Bool :=
  version ≠ "" && version = text.strip version && version.length ≤ 100

def buildMockWriteResult (support : HashSupport φ) (arguments : RecordArguments) :
    Except Rejection (ConnectorWriteResult φ) := do
  require (arguments.connectorFamily ∈ EXTERNAL_CONNECTOR_FAMILIES ∧
      arguments.bindingId = "mock." ++ arguments.connectorFamily ++ ".default" ∧
        validProviderVersion support.text arguments.providerVersion)
    "invalid_request" "mock receipt requires its exact trusted provider identity"
  let bytes ← canonicalJsonBytes support.text support.numbers
    (.record [("binding_id", .str arguments.bindingId),
    ("idempotency_key", .str arguments.idempotencyKey), ("action_hash", .str arguments.actionHash),
    ("capability_id", .str arguments.capabilityId)])
  let receiptDigest := support.sha256 (MOCK_CONNECTOR_DOMAIN ++ bytes)
  ConnectorWriteResult.build ("mock-receipt:" ++ String.ofList (receiptDigest.toList.take 32))
    "mock_succeeded" [(some "mode", .str "mock"), (some "external_side_effect", .bool false),
      (some "capability_id", .str arguments.capabilityId), (some "provider_kind", .str "connector"),
      (some "provider_name", .str arguments.connectorFamily),
        (some "provider_version", .str arguments.providerVersion)]

def legacyKeys : List (Option String) :=
  [some "mode", some "external_side_effect", some "capability_id"]

def legacyKey (name : Option String) : Bool := legacyKeys.any fun key => name = key

/-- Receipts from before the provider was recorded have three facts only. -/
def ConnectorWriteResult.legacy (result : ConnectorWriteResult φ) : Bool :=
  (result.safeMetadata.all fun member => legacyKey member.1) &&
    legacyKeys.all fun key => result.safeMetadata.any fun member => member.1 = key

def ConnectorWriteResult.recordedVersion (text : TextSupport) (result : ConnectorWriteResult φ) :
    Except Rejection String :=
  match result.safeMetadata.find? fun member => member.1 = some "provider_version" with
  | some (_, .str version) => do
      require (validProviderVersion text version) "idempotency_conflict"
        "mock receipt has invalid recorded provider provenance"
      return version
  | _ => reject "idempotency_conflict" "mock receipt has invalid recorded provider provenance"

def ConnectorWriteResult.replayVersion (text : TextSupport) (result : ConnectorWriteResult φ) :
    Except Rejection String :=
  if result.legacy then .ok "legacy-validation-only" else result.recordedVersion text

/-- The deterministic facts of a stored result are rebuilt under the version that it recorded. -/
def replayMockWriteResult (support : HashSupport φ) (result : ConnectorWriteResult φ)
    (arguments : RecordArguments) : Except Rejection (ConnectorWriteResult φ) := do
  let recordedVersion ← result.replayVersion support.text
  let rebuilt ← buildMockWriteResult support { arguments with providerVersion := recordedVersion }
  let expected := if result.legacy then
      { rebuilt with safeMetadata := rebuilt.safeMetadata.filter fun member => legacyKey member.1 }
    else rebuilt
  let stored ← canonicalJsonBytes support.text support.numbers result.modelDump
  let deterministic ← canonicalJsonBytes support.text support.numbers expected.modelDump
  require (stored = deterministic) "idempotency_conflict"
    "mock receipt conflicts with its deterministic result"
  return result

structure ConnectorActionReceipt (φ : Type) where
  externalActionId : String
  connectorBindingId : String
  idempotencyKey : String
  actionHash : String
  capabilityId : String
  receiptId : String
  status : String
  safeMetadata : PythonValue φ
  createdAt : Time

namespace ConnectorActionReceipt

def key (receipt : ConnectorActionReceipt φ) : String × String :=
  (receipt.connectorBindingId, receipt.idempotencyKey)

/-- The checked receipt with a snapshot of its metadata. -/
def build (support : HashSupport φ) (receipt : ConnectorActionReceipt φ) :
    Except Rejection (ConnectorActionReceipt φ) := do
  requireId receipt.externalActionId "external action ID"
  requireId receipt.connectorBindingId "connector binding ID"
  requireId receipt.idempotencyKey "connector receipt idempotency key"
  requireId receipt.capabilityId "connector receipt capability ID"
  requireId receipt.receiptId "connector receipt ID"
  requireId receipt.status "connector receipt status"
  requireDigest receipt.actionHash "connector receipt action hash"
  let safeMetadata ← frozenJsonMapping support.text support.numbers receipt.safeMetadata
    "connector receipt safe metadata"
  return { receipt with safeMetadata }

def result (receipt : ConnectorActionReceipt φ) : Except Rejection (ConnectorWriteResult φ) :=
  match receipt.safeMetadata with
  | .mapping members => ConnectorWriteResult.build receipt.receiptId receipt.status members
  | _ => reject "TypeError" "safe metadata is no mapping"

def nameSameAction (receipt other : ConnectorActionReceipt φ) : Bool :=
  receipt.externalActionId = other.externalActionId &&
    receipt.connectorBindingId = other.connectorBindingId &&
    receipt.idempotencyKey = other.idempotencyKey && receipt.actionHash = other.actionHash &&
    receipt.capabilityId = other.capabilityId

/-- An existing receipt equals the offered one, whose creation may be later. -/
def sameReceipt (support : HashSupport φ) (existing receipt : ConnectorActionReceipt φ) :
    Except Rejection Bool :=
  if existing.nameSameAction receipt ∧ existing.receiptId = receipt.receiptId ∧
      existing.status = receipt.status then do
    let known ← canonicalJsonBytes support.text support.numbers existing.safeMetadata
    let offered ← canonicalJsonBytes support.text support.numbers receipt.safeMetadata
    return known = offered
  else .ok false

end ConnectorActionReceipt

def collision {α : Type} : Except Rejection α :=
  reject "connector_receipt_collision" "connector idempotency key maps to another exact action"

/-- The receipts with the actions that they may name and the receipts whose details are erased. -/
structure ReceiptDb (φ : Type) where
  receipts : Table (String × String) (ConnectorActionReceipt φ)
  actions : List String
  erased : List String

namespace ReceiptDb

def get (support : HashSupport φ) (db : ReceiptDb φ) (key : String × String) :
    Except Rejection (Option (ConnectorActionReceipt φ)) :=
  match db.receipts.get? key with
  | none => .ok none
  | some row => do
      require (row.receiptId ∉ db.erased) "DetailExpired" row.receiptId
      let receipt ← row.build support
      return some receipt

/-- The insertion of one row, refused by a missing action or by any unique constraint. -/
def insertRow (db : ReceiptDb φ) (row : ConnectorActionReceipt φ) :
    Option (Table (String × String) (ConnectorActionReceipt φ)) :=
  if row.externalActionId ∈ db.actions ∧
      (db.receipts.rows.all fun other =>
        other.receiptId ≠ row.receiptId && other.externalActionId ≠ row.externalActionId) then
    db.receipts.insert? row.key row
  else none

/-- The receipt that stands in the way of an insertion. -/
def existing (support : HashSupport φ) (db : ReceiptDb φ) (receipt : ConnectorActionReceipt φ) :
    Except Rejection (ConnectorActionReceipt φ) := do
  match ← db.get support receipt.key with
  | some existing => return existing
  | none =>
      match db.receipts.rows.find? fun row => row.externalActionId = receipt.externalActionId with
      | some row => row.build support
      | none => reject "IntegrityError" "the receipt violates a constraint"

structure Stored (φ : Type) where
  db : ReceiptDb φ
  receipt : ConnectorActionReceipt φ
  inserted : Bool

def addOrGet (support : HashSupport φ) (db : ReceiptDb φ) (receipt : ConnectorActionReceipt φ) :
    Except Rejection (Stored φ) := do
  let plain ← frozenJsonMapping support.text support.numbers receipt.safeMetadata
    "connector receipt safe metadata"
  match db.insertRow { receipt with safeMetadata := plain } with
  | some receipts => return { db := { db with receipts }, receipt, inserted := true }
  | none =>
      let existing ← db.existing support receipt
      let same ← existing.sameReceipt support receipt
      if same then return { db, receipt := existing, inserted := false } else collision

end ReceiptDb

/-- The receipt that a call would insert. -/
def candidate (support : HashSupport φ) (arguments : RecordArguments) (now : Time) :
    Except Rejection (ConnectorActionReceipt φ) := do
  let deterministic ← buildMockWriteResult support arguments
  ConnectorActionReceipt.build support {
    externalActionId := arguments.externalActionId
    connectorBindingId := arguments.bindingId
    idempotencyKey := arguments.idempotencyKey
    actionHash := arguments.actionHash
    capabilityId := arguments.capabilityId
    receiptId := deterministic.receiptId
    status := deterministic.status
    safeMetadata := .mapping deterministic.safeMetadata
    createdAt := now }

/-- A conflict of the receipts is one of the connector. -/
def portConflict (reason : Rejection) : Rejection :=
  if reason.code = "connector_receipt_collision" then
    { code := "idempotency_conflict",
      message := "durable connector receipt conflicts with the exact action" }
  else reason

/-- The first transaction of a call. -/
def lookupReceipt (support : HashSupport φ) (db : ReceiptDb φ) (arguments : RecordArguments)
    (receipt : ConnectorActionReceipt φ) : Except Rejection (Option (ConnectorWriteResult φ)) := do
  match ← db.get support receipt.key with
  | none => return none
  | some existing =>
      if existing.nameSameAction receipt then
        let result ← existing.result
        let replayed ← replayMockWriteResult support result arguments
        return some replayed
      else collision

inductive CallPhase (φ : Type) where
  | looking (receipt : ConnectorActionReceipt φ)
  | inserting (receipt : ConnectorActionReceipt φ)
  | returned (result : ConnectorWriteResult φ)
  | failed (reason : Rejection)

structure RecordCall (φ : Type) where
  arguments : RecordArguments
  phase : CallPhase φ

def CallPhase.finished : Except Rejection (ConnectorWriteResult φ) → CallPhase φ
  | .ok result => .returned result
  | .error reason => .failed reason

structure LedgerState (φ : Type) where
  db : ReceiptDb φ
  calls : List (RecordCall φ)

/-- What happens to the ledger. Calls come from any process. -/
inductive LedgerStep where
  | call (arguments : RecordArguments) (now : Time)
  | lookup (index : Nat)
  | insert (index : Nat)
  | register (externalActionId : String)
  | erase (key : String × String)

def ReceiptDb.erase (db : ReceiptDb φ) (key : String × String) : ReceiptDb φ :=
  match db.receipts.get? key with
  | none => db
  | some row =>
      { db with
        receipts := db.receipts.set key { row with safeMetadata := .mapping [] }
        erased := row.receiptId :: db.erased }

namespace LedgerState

variable (support : HashSupport φ) (state : LedgerState φ)

def afterCall (arguments : RecordArguments) (now : Time) : CallPhase φ :=
  match candidate support arguments now with
  | .ok receipt => .looking receipt
  | .error reason => .failed reason

def afterLookup (arguments : RecordArguments) (receipt : ConnectorActionReceipt φ) : CallPhase φ :=
  match lookupReceipt support state.db arguments receipt with
  | .ok (some result) => .returned result
  | .ok none => .inserting receipt
  | .error reason => .failed (portConflict reason)

def afterInsert (receipt : ConnectorActionReceipt φ) : ReceiptDb φ × CallPhase φ :=
  match state.db.addOrGet support receipt with
  | .ok stored => (stored.db, .finished stored.receipt.result)
  | .error reason => (state.db, .failed (portConflict reason))

def next : LedgerStep → LedgerState φ
  | .call arguments now =>
    { state with calls := state.calls ++ [⟨arguments, afterCall support arguments now⟩] }
  | .lookup index =>
      match state.calls[index]? with
      | some ⟨arguments, .looking receipt⟩ =>
          { state with
            calls := state.calls.set index ⟨arguments,
              state.afterLookup support arguments receipt⟩ }
      | _ => state
  | .insert index =>
      match state.calls[index]? with
      | some ⟨arguments, .inserting receipt⟩ =>
          let (db, phase) := state.afterInsert support receipt
          { db, calls := state.calls.set index ⟨arguments, phase⟩ }
      | _ => state
  | .register externalActionId =>
      { state with db := { state.db with actions := externalActionId :: state.db.actions } }
  | .erase key => { state with db := state.db.erase key }

end LedgerState

section

variable {support : HashSupport φ}

theorem same_mapping
    (same : (PythonValue.mapping members).Same value) : ∃ others, value = .mapping others := by
  cases value with
  | mapping others => exact ⟨others, rfl⟩
  | null | bool | int | float | str | sequence | other => simp [PythonValue.Same] at same

theorem mapping_of_nfcAll {value : PythonValue φ}
    (composed : value.nfcAll text = .mapping members) : ∃ others, value = .mapping others := by
  cases value with
  | mapping others => exact ⟨others, rfl⟩
  | null | bool | int | float | str | sequence | other => simp [PythonValue.nfcAll] at composed

theorem frozen_frozen
    (accepted : frozenJsonMapping support.text support.numbers value fieldName = .ok frozen) :
    (∃ members, frozen = .mapping members) ∧
      ∀ other, frozenJsonMapping support.text support.numbers frozen other = .ok frozen := by
  obtain ⟨bytes, written, again⟩ := frozenJsonMapping_bytes accepted
  cases value with
  | null | bool | int | float | str | sequence | other =>
      simp [frozenJsonMapping, reject_ok] at accepted
  | mapping members =>
      simp only [frozenJsonMapping, bind_ok, requireSome_ok] at accepted
      obtain ⟨_, rewritten, loaded⟩ := accepted
      cases written.symm.trans rewritten
      have same := (canonicalJsonBytes_eq_iff written again).mp rfl
      rw [PythonValue.nfcAll] at same
      obtain ⟨composed, shape⟩ := same_mapping same
      obtain ⟨others, rfl⟩ := mapping_of_nfcAll shape
      refine ⟨⟨others, rfl⟩, fun other => ?_⟩
      simp only [frozenJsonMapping, bind_ok, requireSome_ok]
      exact ⟨bytes, again, loaded⟩

theorem frozen_settled (support : HashSupport φ)
    (settled : (PythonValue.mapping members).Settled support.text support.numbers)
    (written : documentMembers support.numbers members = .ok documents) (fieldName : String) :
    (∃ bytes, canonicalJsonBytes support.text support.numbers (.mapping members) = .ok bytes) ∧
      ∃ frozen, frozenJsonMapping support.text support.numbers (.mapping members) fieldName =
        .ok frozen := by
  have writtenAs : (PythonValue.mapping members).WrittenAs support.numbers _ :=
    ⟨documents, rfl, written⟩
  have bytes := canonicalJsonBytes_ok.mpr ⟨_, _, settled_normalize settled, writtenAs, rfl⟩
  obtain ⟨read, frozen, loaded, _⟩ := settled_readBack settled writtenAs
  refine ⟨⟨_, bytes⟩, frozen, ?_⟩
  simp only [frozenJsonMapping, bind_ok, requireSome_ok]
  exact ⟨_, bytes, (jsonLoads_written read).trans loaded⟩

theorem frozen_empty (fieldName : String) :
    frozenJsonMapping support.text support.numbers (.mapping []) fieldName = .ok (.mapping []) := by
  have settled : (PythonValue.mapping [] : PythonValue φ).Settled support.text support.numbers := by
    simp [PythonValue.Settled, MembersSettled]
  have written : (PythonValue.mapping [] : PythonValue φ).WrittenAs support.numbers (.object []) :=
    ⟨[], rfl, rfl⟩
  have bytes := canonicalJsonBytes_ok.mpr ⟨_, _, settled_normalize settled, written, rfl⟩
  have read : JsonText.NumbersRead (.object []) := by
    simp [JsonText.NumbersRead, JsonText.MembersRead]
  simp only [frozenJsonMapping, bind_ok, requireSome_ok]
  exact ⟨_, bytes, jsonLoads_written read⟩

namespace ConnectorActionReceipt

variable {receipt built : ConnectorActionReceipt φ}

theorem build_ok (accepted : receipt.build support = .ok built) :
    built = { receipt with safeMetadata := built.safeMetadata } ∧
      ∃ members, built.safeMetadata = .mapping members := by
  simp only [build, bind_ok, pure_ok] at accepted
  obtain ⟨_, _, _, _, _, _, _, _, _, _, _, _, _, _, _, frozen, rfl⟩ := accepted
  exact ⟨rfl, (frozen_frozen frozen).1⟩

theorem build_build (accepted : receipt.build support = .ok built) :
    built.build support = .ok built := by
  simp only [build, bind_ok, pure_ok] at accepted ⊢
  obtain ⟨_, action, _, binding, _, key, _, capability, _, receiptId, _, status, _, hash, _, frozen,
    rfl⟩ := accepted
  exact ⟨(), action, (), binding, (), key, (), capability, (), receiptId, (), status, (), hash, _,
    (frozen_frozen frozen).2 _, rfl⟩

theorem build_erased (accepted : receipt.build support = .ok built) :
    { built with safeMetadata := .mapping [] }.build support =
      .ok { built with safeMetadata := .mapping [] } := by
  have again := build_build accepted
  simp only [build, bind_ok, pure_ok] at again ⊢
  obtain ⟨_, action, _, binding, _, key, _, capability, _, receiptId, _, status, _, hash, _⟩ :=
    again
  exact ⟨(), action, (), binding, (), key, (), capability, (), receiptId, (), status, (), hash, _,
    frozen_empty _, rfl⟩

end ConnectorActionReceipt

end

def RecordArguments.key (arguments : RecordArguments) : String × String :=
  (arguments.bindingId, arguments.idempotencyKey)

/-- The receipt is for the action that the arguments name. -/
structure ConnectorActionReceipt.Names (receipt : ConnectorActionReceipt φ)
    (arguments : RecordArguments) : Prop where
  key : receipt.key = arguments.key
  action : receipt.externalActionId = arguments.externalActionId
  hash : receipt.actionHash = arguments.actionHash
  capability : receipt.capabilityId = arguments.capabilityId

/-- A receipt under the same key for another action, hash or capability. -/
def ConnectorActionReceipt.Differs (receipt : ConnectorActionReceipt φ)
    (arguments : RecordArguments) : Prop :=
  receipt.externalActionId ≠ arguments.externalActionId ∨
    receipt.actionHash ≠ arguments.actionHash ∨
    receipt.capabilityId ≠ arguments.capabilityId

namespace ConnectorActionReceipt

variable {support : HashSupport φ} {receipt other : ConnectorActionReceipt φ}
  {arguments : RecordArguments}

theorem Differs.not_names (differs : receipt.Differs arguments) : ¬ receipt.Names arguments := by
  intro names
  rcases differs with action | hash | capability
  · exact action names.action
  · exact hash names.hash
  · exact capability names.capability

theorem nameSameAction_iff : receipt.nameSameAction other = true ↔
    receipt.externalActionId = other.externalActionId ∧
    receipt.key = other.key ∧ receipt.actionHash = other.actionHash ∧
      receipt.capabilityId = other.capabilityId := by
  simp only [nameSameAction, key, Bool.and_eq_true, decide_eq_true_eq, Prod.mk.injEq, and_assoc]

theorem sameReceipt_ok (same : receipt.sameReceipt support other = .ok true) :
    receipt.nameSameAction other = true := by
  unfold sameReceipt at same
  split at same
  · next equal => exact equal.1
  · cases same

theorem sameReceipt_of_not (differs : receipt.nameSameAction other = false) :
    receipt.sameReceipt support other = .ok false := by
  rw [sameReceipt, if_neg]
  rw [differs]
  exact fun equal => Bool.false_ne_true equal.1

theorem Names.of_same (names : other.Names arguments) (same : receipt.nameSameAction other = true) :
    receipt.Names arguments := by
  obtain ⟨action, key, hash, capability⟩ := nameSameAction_iff.mp same
  exact ⟨key.trans names.key, action.trans names.action, hash.trans names.hash,
    capability.trans names.capability⟩

theorem result_ok {result : ConnectorWriteResult φ} (read : receipt.result = .ok result) :
    result.receiptId = receipt.receiptId ∧ result.status = receipt.status ∧
      receipt.safeMetadata = .mapping result.safeMetadata := by
  unfold ConnectorActionReceipt.result at read
  split at read
  · next members shape =>
      simp only [ConnectorWriteResult.build, bind_ok, pure_ok] at read
      obtain ⟨_, _, _, _, _, _, rfl⟩ := read
      exact ⟨rfl, rfl, shape⟩
  · exact absurd read (by simp [reject_ok])

end ConnectorActionReceipt

theorem replay_ok {support : HashSupport φ}
    (accepted : replayMockWriteResult support result arguments = .ok replayed) :
      replayed = result := by
  simp only [replayMockWriteResult, bind_ok, pure_ok] at accepted
  obtain ⟨_, _, _, _, _, _, _, _, _, _, rfl⟩ := accepted
  rfl

theorem candidate_ok {support : HashSupport φ} {now : Time}
    (accepted : candidate support arguments now = .ok receipt) :
    receipt.Names arguments ∧ receipt.build support = .ok receipt := by
  simp only [candidate, bind_ok] at accepted
  obtain ⟨deterministic, _, built⟩ := accepted
  have shape := (ConnectorActionReceipt.build_ok built).1
  exact ⟨by rw [shape]; exact ⟨rfl, rfl, rfl, rfl⟩, ConnectorActionReceipt.build_build built⟩

/-- Rows lie under their own key and are read back as they are. -/
structure ReceiptDb.Proper (support : HashSupport φ) (db : ReceiptDb φ) : Prop where
  keyed : ∀ key row, db.receipts.get? key = some row → row.key = key
  readable : ∀ key row, db.receipts.get? key = some row → row.build support = .ok row

namespace ReceiptDb

variable {support : HashSupport φ} {db : ReceiptDb φ} {receipt row : ConnectorActionReceipt φ}

theorem Proper.get_some (proper : db.Proper support) (found : db.receipts.get? key = some row) :
    db.get support key = if row.receiptId ∈ db.erased then reject "DetailExpired" row.receiptId
      else .ok (some row) := by
  rw [get, found]
  dsimp only
  rw [proper.readable key row found]
  by_cases erased : row.receiptId ∈ db.erased
  · rw [if_pos erased, require, if_neg (not_not.mpr erased)]
    rfl
  · rw [if_neg erased, require, if_pos erased]
    rfl

theorem Proper.get_ok (proper : db.Proper support)
    (read : db.get support key = .ok (some receipt)) :
    db.receipts.get? key = some receipt ∧ receipt.receiptId ∉ db.erased := by
  cases found : db.receipts.get? key with
  | none =>
      rw [get, found] at read
      cases read
  | some row =>
      rw [proper.get_some found] at read
      split at read
      · exact absurd read (by simp [reject_ok])
      · next live =>
          cases read
          exact ⟨rfl, live⟩

theorem Proper.get_none (proper : db.Proper support) (read : db.get support key = .ok none) :
    db.receipts.get? key = none := by
  cases found : db.receipts.get? key with
  | none => rfl
  | some row =>
      rw [proper.get_some found] at read
      split at read
      · exact absurd read (by simp [reject_ok])
      · cases read

theorem insertRow_ok {receipts : Table (String × String) (ConnectorActionReceipt φ)}
    (inserted : db.insertRow row = some receipts) :
      db.receipts.insert? row.key row = some receipts := by
  unfold insertRow at inserted
  split at inserted
  · exact inserted
  · cases inserted

theorem addOrGet_frozen (frozen : receipt.build support = .ok receipt) :
    db.addOrGet support receipt = match db.insertRow receipt with
      | some receipts => .ok { db := { db with receipts }, receipt, inserted := true }
      | none =>
          db.existing support receipt >>= fun existing =>
              existing.sameReceipt support receipt >>= fun same =>
          if same then .ok { db, receipt := existing, inserted := false } else collision := by
  have snapshot : frozenJsonMapping support.text support.numbers receipt.safeMetadata
      "connector receipt safe metadata" = .ok receipt.safeMetadata := by
    simp only [ConnectorActionReceipt.build, bind_ok, pure_ok] at frozen
    obtain ⟨_, _, _, _, _, _, _, _, _, _, _, _, _, _, _, taken, same⟩ := frozen
    rw [taken]
    exact congrArg Except.ok (congrArg ConnectorActionReceipt.safeMetadata same)
  rw [addOrGet, snapshot]
  rfl

/-- A receipt is inserted as it is, or an equal one is found under its key. -/
theorem Proper.addOrGet_ok (proper : db.Proper support)
    (frozen : receipt.build support = .ok receipt)
    (added : db.addOrGet support receipt = .ok stored) :
    (∃ receipts, db.receipts.insert? receipt.key receipt = some receipts ∧
      stored.db = { db with receipts } ∧
        stored.receipt = receipt) ∨
      (stored.db = db ∧ db.receipts.get? receipt.key = some stored.receipt ∧
        stored.receipt.nameSameAction receipt ∧ stored.receipt.receiptId ∉ db.erased) := by
  rw [addOrGet_frozen frozen] at added
  split at added
  · next receipts inserted =>
      cases added
      exact .inl ⟨receipts, insertRow_ok inserted, rfl, rfl⟩
  · obtain ⟨existing, found, added⟩ := bind_ok.mp added
    obtain ⟨same, equal, added⟩ := bind_ok.mp added
    cases same with
    | false => exact absurd added (by simp [collision, reject_ok])
    | true =>
        cases added
        have same := ConnectorActionReceipt.sameReceipt_ok equal
        obtain ⟨known, read, found⟩ := bind_ok.mp found
        cases known with
        | some known =>
            cases found
            obtain ⟨listed, live⟩ := proper.get_ok read
            exact .inr ⟨rfl, listed, same, live⟩
        | none =>
            -- A row of the same action under this key would have been read.
            dsimp only at found
            split at found
            · rename_i row other
              obtain ⟨key, listed⟩ := Table.mem_rows_iff.mp (List.mem_of_find?_eq_some other)
              have unchanged : row = existing :=
                Except.ok.inj ((proper.readable key row listed).symm.trans found)
              have placed : receipt.key = key := by
                rw [← (ConnectorActionReceipt.nameSameAction_iff.mp same).2.1, ← unchanged]
                exact proper.keyed key row listed
              rw [← placed, proper.get_none read] at listed
              cases listed
            · exact absurd found (by simp [reject_ok])

theorem Proper.lookup_ok (proper : db.Proper support)
    (found : lookupReceipt support db arguments receipt = .ok (some result)) :
    ∃ row, db.receipts.get? receipt.key = some row ∧ row.receiptId ∉ db.erased ∧
      row.nameSameAction receipt = true ∧ row.result = .ok result := by
  obtain ⟨known, read, found⟩ := bind_ok.mp found
  cases known with
  | none => cases found
  | some row =>
      obtain ⟨listed, live⟩ := proper.get_ok read
      dsimp only at found
      split at found
      · next same =>
          obtain ⟨stored, given, found⟩ := bind_ok.mp found
          obtain ⟨replayed, rebuilt, found⟩ := bind_ok.mp found
          cases found
          cases replay_ok rebuilt
          exact ⟨row, listed, live, same, given⟩
      · exact absurd found (by simp [collision, reject_ok])

/-- Why a call for another action is refused by the committed receipt. -/
def refusal (db : ReceiptDb φ) (row : ConnectorActionReceipt φ) : Rejection :=
  if row.receiptId ∈ db.erased then { code := "DetailExpired", message := row.receiptId }
  else
    { code := "idempotency_conflict",
      message := "durable connector receipt conflicts with the exact action" }

theorem nameSameAction_of_differs (names : receipt.Names arguments)
    (differs : row.Differs arguments) : row.nameSameAction receipt = false := by
  by_contra same
  rw [Bool.not_eq_false] at same
  exact differs.not_names (names.of_same same)

theorem Proper.lookup_differs (proper : db.Proper support)
    (names : receipt.Names arguments) (found : db.receipts.get? arguments.key = some row)
    (differs : row.Differs arguments) :
    ∃ reason, lookupReceipt support db arguments receipt = .error reason ∧
      portConflict reason = db.refusal row := by
  rw [← names.key] at found
  rw [lookupReceipt, proper.get_some found, refusal]
  by_cases erased : row.receiptId ∈ db.erased
  · rw [if_pos erased, if_pos erased]
    exact ⟨_, rfl, rfl⟩
  · rw [if_neg erased, if_neg erased]
    have other := nameSameAction_of_differs names differs
    exact ⟨_, if_neg (by rw [other]; exact Bool.false_ne_true), rfl⟩

theorem Proper.addOrGet_differs (proper : db.Proper support)
    (names : receipt.Names arguments) (frozen : receipt.build support = .ok receipt)
    (found : db.receipts.get? arguments.key = some row) (differs : row.Differs arguments) :
    ∃ reason, db.addOrGet support receipt = .error reason ∧
      portConflict reason = db.refusal row := by
  have other := nameSameAction_of_differs names differs
  rw [← names.key] at found
  have refused : db.insertRow receipt = none := by
    unfold insertRow
    split
    · exact Table.insert?_eq_none.mpr ⟨row, found⟩
    · rfl
  rw [addOrGet_frozen frozen, refused, existing, proper.get_some found, refusal]
  by_cases erased : row.receiptId ∈ db.erased
  · rw [if_pos erased, if_pos erased]
    exact ⟨_, rfl, rfl⟩
  · rw [if_neg erased, if_neg erased]
    have unequal : row.sameReceipt support receipt = .ok false :=
      ConnectorActionReceipt.sameReceipt_of_not other
    refine ⟨{ code := "connector_receipt_collision"
              message := "connector idempotency key maps to another exact action" }, ?_, rfl⟩
    change (row.sameReceipt support receipt >>= fun same => _) = _
    rw [unequal]
    rfl

end ReceiptDb

/-- Rows stay under their keys and lose nothing but erased metadata. -/
structure ReceiptDb.Kept (before after : ReceiptDb φ) : Prop where
  rows : ∀ key row, before.receipts.get? key = some row → ∃ metadata,
    after.receipts.get? key = some { row with safeMetadata := metadata } ∧
      (row.receiptId ∉ after.erased → metadata = row.safeMetadata)
  erased : ∀ receiptId ∈ before.erased, receiptId ∈ after.erased

namespace ReceiptDb.Kept

variable {before middle after : ReceiptDb φ}

theorem refl (db : ReceiptDb φ) : Kept db db :=
  ⟨fun _ row found => ⟨row.safeMetadata, found, fun _ => rfl⟩, fun _ listed => listed⟩

theorem trans (first : Kept before middle) (second : Kept middle after) : Kept before after := by
  refine ⟨fun key row found => ?_, fun receiptId listed =>
    second.erased receiptId (first.erased receiptId listed)⟩
  obtain ⟨metadata, kept, live⟩ := first.rows key row found
  obtain ⟨later, keptLater, liveLater⟩ := second.rows key _ kept
  refine ⟨later, keptLater, fun unerased => ?_⟩
  exact (liveLater unerased).trans (live fun listed => unerased (second.erased _ listed))

theorem of_insert {receipts : Table (String × String) (ConnectorActionReceipt φ)}
    (inserted : before.receipts.insert? key receipt = some receipts) :
    Kept before { before with receipts } := by
  obtain ⟨absent, later⟩ := Table.get?_insert inserted
  refine ⟨fun other row found => ⟨row.safeMetadata, ?_, fun _ => rfl⟩, fun _ listed => listed⟩
  rw [later, if_neg]
  · exact found
  · rintro rfl
    rw [absent] at found
    cases found

theorem of_erase (key : String × String) : Kept before (before.erase key) := by
  unfold ReceiptDb.erase
  cases found : before.receipts.get? key with
  | none => exact refl before
  | some row =>
      refine ⟨fun other kept listed => ?_, fun receiptId listed => List.mem_cons_of_mem _ listed⟩
      by_cases same : other = key
      · cases same
        cases found.symm.trans listed
        exact ⟨.mapping [], Table.get?_set_self found,
          fun unerased => absurd List.mem_cons_self unerased⟩
      · exact ⟨kept.safeMetadata, (Table.get?_set_ne same).trans listed, fun _ => rfl⟩

end ReceiptDb.Kept

namespace ReceiptDb.Proper

variable {support : HashSupport φ} {db : ReceiptDb φ} {receipt : ConnectorActionReceipt φ}

theorem of_insert (proper : db.Proper support) (frozen : receipt.build support = .ok receipt)
    {receipts : Table (String × String) (ConnectorActionReceipt φ)}
    (inserted : db.receipts.insert? receipt.key receipt = some receipts) :
    ReceiptDb.Proper support { db with receipts } := by
  obtain ⟨_, later⟩ := Table.get?_insert inserted
  constructor
  · intro key row found
    rw [later] at found
    split at found
    · next same =>
        cases found
        exact same.symm
    · exact proper.keyed key row found
  · intro key row found
    rw [later] at found
    split at found
    · cases found
      exact frozen
    · exact proper.readable key row found

theorem of_erase (proper : db.Proper support) (key : String × String) :
    (db.erase key).Proper support := by
  unfold ReceiptDb.erase
  cases present : db.receipts.get? key with
  | none => exact proper
  | some row =>
      constructor
      · intro other later found
        rw [Table.get?_set present] at found
        split at found
        · next same =>
            cases found
            exact (proper.keyed key row present).trans same.symm
        · exact proper.keyed other later found
      · intro other later found
        rw [Table.get?_set present] at found
        split at found
        · cases found
          exact ConnectorActionReceipt.build_erased (proper.readable key row present)
        · exact proper.readable other later found

end ReceiptDb.Proper

/-- A result is that of the committed receipt under the key of the call. -/
def ReceiptDb.Granted (db : ReceiptDb φ) (arguments : RecordArguments)
    (result : ConnectorWriteResult φ) : Prop :=
  ∃ row, db.receipts.get? arguments.key = some row ∧ row.Names arguments ∧
    result.receiptId = row.receiptId ∧
    result.status = row.status ∧
      (row.receiptId ∉ db.erased → row.safeMetadata = .mapping result.safeMetadata)

namespace ReceiptDb.Granted

variable {before after db : ReceiptDb φ} {arguments other : RecordArguments}
  {result earlier : ConnectorWriteResult φ}
variable {row : ConnectorActionReceipt φ}

theorem kept (granted : before.Granted arguments result) (kept : before.Kept after) :
    after.Granted arguments result := by
  obtain ⟨row, found, names, receiptId, status, live⟩ := granted
  obtain ⟨metadata, later, unchanged⟩ := kept.rows _ row found
  refine ⟨_, later, ⟨names.key, names.action, names.hash, names.capability⟩, receiptId, status,
    fun unerased => ?_⟩
  exact (unchanged unerased).trans (live fun listed => unerased (kept.erased _ listed))

theorem of_row (found : db.receipts.get? arguments.key = some row) (names : row.Names arguments)
    (read : row.result = .ok result) : db.Granted arguments result := by
  obtain ⟨receiptId, status, metadata⟩ := ConnectorActionReceipt.result_ok read
  exact ⟨row, found, names, receiptId, status, fun _ => metadata⟩

theorem of_live (granted : db.Granted other earlier) (same : other.key = arguments.key)
    (found : db.receipts.get? arguments.key = some row) (live : row.receiptId ∉ db.erased)
    (read : row.result = .ok result) : earlier = result := by
  obtain ⟨known, listed, _, receiptId, status, metadata⟩ := granted
  rw [same, found] at listed
  cases listed
  obtain ⟨readId, readStatus, readMetadata⟩ := ConnectorActionReceipt.result_ok read
  have members := (metadata live).symm.trans readMetadata
  cases earlier
  cases result
  cases members
  cases receiptId
  cases readId
  cases status
  cases readStatus
  rfl

end ReceiptDb.Granted

def ledgerMachine (support : HashSupport φ) : Machine (LedgerState φ) LedgerStep where
  initial state := state.calls = [] ∧ state.db.Proper support
  step state label after := after = state.next support label

/-- What holds of every call, wherever it stands. -/
structure RecordCall.Sound (support : HashSupport φ) (db : ReceiptDb φ)
    (call : RecordCall φ) : Prop where
  looking : ∀ receipt, call.phase = .looking receipt →
    receipt.Names call.arguments ∧ receipt.build support = .ok receipt
  inserting : ∀ receipt, call.phase = .inserting receipt →
    receipt.Names call.arguments ∧ receipt.build support = .ok receipt
  granted : ∀ result, call.phase = .returned result → db.Granted call.arguments result

theorem RecordCall.Sound.kept {support : HashSupport φ} {call : RecordCall φ}
    (sound : call.Sound support before) (kept : before.Kept after) : call.Sound support after :=
  { sound with granted := fun result returned => (sound.granted result returned).kept kept }

/-- Two calls that returned under one key gave one result. -/
def RecordCall.Agrees (call other : RecordCall φ) : Prop :=
  ∀ result earlier, call.phase = .returned result → other.phase = .returned earlier →
    call.arguments.key = other.arguments.key → result = earlier

theorem RecordCall.Agrees.symm {call other : RecordCall φ} (agrees : call.Agrees other) :
    other.Agrees call :=
  fun result earlier returned before same => (agrees earlier result before returned same.symm).symm

structure LedgerState.Sound (support : HashSupport φ) (state : LedgerState φ) : Prop where
  proper : state.db.Proper support
  calls : ∀ call ∈ state.calls, call.Sound support state.db
  agree : ∀ call ∈ state.calls, ∀ other ∈ state.calls, call.Agrees other

namespace LedgerState

variable {support : HashSupport φ} {state : LedgerState φ} {arguments : RecordArguments}

namespace Sound

theorem call (sound : state.Sound support) (arguments : RecordArguments) (now : Time) :
    (state.next support (.call arguments now)).Sound support := by
  have started : RecordCall.Sound support state.db
      ⟨arguments, afterCall support arguments now⟩ := by
    unfold afterCall
    cases offered : candidate support arguments now with
    | error reason => exact ⟨by simp, by simp, by simp⟩
    | ok receipt =>
        refine ⟨fun known looking => ?_, by simp, by simp⟩
        cases looking
        exact candidate_ok offered
  have unreturned : ∀ result, afterCall support arguments now ≠ .returned result := by
    intro result
    unfold afterCall
    split <;> simp
  refine ⟨sound.proper, fun call listed => ?_, fun call listed other present => ?_⟩
  · rcases List.mem_append.mp listed with earlier | last
    · exact sound.calls call earlier
    · rw [List.mem_singleton.mp last]
      exact started
  · rcases List.mem_append.mp listed with earlier | last
    · rcases List.mem_append.mp present with before | after
      · exact sound.agree call earlier other before
      · rw [List.mem_singleton.mp after]
        exact fun _ later _ returned => absurd returned (unreturned later)
    · rw [List.mem_singleton.mp last]
      exact fun result _ returned => absurd returned (unreturned result)

theorem settle (sound : state.Sound support) {db : ReceiptDb φ} (proper : db.Proper support)
    (kept : state.db.Kept db) (index : Nat) {call : RecordCall φ}
    (progressed : call.Sound support db) (agrees : ∀ other ∈ state.calls, call.Agrees other) :
    LedgerState.Sound support { db, calls := state.calls.set index call } := by
  refine ⟨proper, fun known listed => ?_, fun known listed other present => ?_⟩
  · rcases List.mem_or_eq_of_mem_set listed with earlier | rfl
    · exact (sound.calls known earlier).kept kept
    · exact progressed
  · rcases List.mem_or_eq_of_mem_set listed with earlier | rfl
    · rcases List.mem_or_eq_of_mem_set present with before | rfl
      · exact sound.agree known earlier other before
      · exact (agrees known earlier).symm
    · rcases List.mem_or_eq_of_mem_set present with before | rfl
      · exact agrees other before
      · intro result earlier returned before _
        exact CallPhase.returned.inj (returned.symm.trans before)

theorem fail (sound : state.Sound support) (index : Nat) (reason : Rejection) :
    LedgerState.Sound support { state with
      calls := state.calls.set index ⟨arguments, .failed reason⟩ } :=
  sound.settle sound.proper (.refl _) index ⟨by simp, by simp, by simp⟩
    (by simp [RecordCall.Agrees])

theorem grant (sound : state.Sound support) {row : ConnectorActionReceipt φ}
    {result : ConnectorWriteResult φ}
    (index : Nat) (found : state.db.receipts.get? arguments.key = some row)
    (live : row.receiptId ∉ state.db.erased)
    (names : row.Names arguments) (read : row.result = .ok result) :
    LedgerState.Sound support { state with
      calls := state.calls.set index ⟨arguments, .returned result⟩ } := by
  refine sound.settle sound.proper (.refl _) index ⟨by simp, by simp, fun given returned => ?_⟩ ?_
  · cases returned
    exact .of_row found names read
  · intro other listed given earlier returned before same
    cases returned
    exact (((sound.calls other listed).granted earlier before).of_live same.symm found
      live read).symm

theorem lookup (sound : state.Sound support) (index : Nat)
    (waiting : state.calls[index]? = some ⟨arguments, .looking receipt⟩) :
    LedgerState.Sound support
      { state with
        calls := state.calls.set index ⟨arguments,
          state.afterLookup support arguments receipt⟩ } := by
  have call := sound.calls _ (List.mem_of_getElem? waiting)
  obtain ⟨names, frozen⟩ := call.looking receipt rfl
  unfold afterLookup
  split
  · next result found =>
      obtain ⟨row, listed, live, same, read⟩ := sound.proper.lookup_ok found
      rw [names.key] at listed
      exact sound.grant index listed live (names.of_same same) read
  · refine sound.settle sound.proper (.refl _) index ⟨by simp, fun known inserting => ?_, by simp⟩
      (by simp [RecordCall.Agrees])
    cases inserting
    exact ⟨names, frozen⟩
  · exact sound.fail index _

theorem insert (sound : state.Sound support) (index : Nat)
    (waiting : state.calls[index]? = some ⟨arguments, .inserting receipt⟩) :
    LedgerState.Sound support
      { db := (state.afterInsert support receipt).1,
        calls := state.calls.set index ⟨arguments, (state.afterInsert support receipt).2⟩ } := by
  have call := sound.calls _ (List.mem_of_getElem? waiting)
  obtain ⟨names, frozen⟩ := call.inserting receipt rfl
  unfold afterInsert
  split
  · next stored added =>
      rcases sound.proper.addOrGet_ok frozen added with ⟨receipts, inserted, db, given⟩ |
        ⟨db, listed, same, live⟩
      · rw [db, given]
        have kept := ReceiptDb.Kept.of_insert inserted
        have proper := sound.proper.of_insert frozen inserted
        obtain ⟨absent, later⟩ := Table.get?_insert inserted
        have listed := (later receipt.key).trans (if_pos rfl)
        rw [names.key] at absent listed
        cases read : receipt.result with
        | error reason =>
            exact sound.settle proper kept index ⟨by simp [CallPhase.finished],
              by simp [CallPhase.finished],
              by simp [CallPhase.finished]⟩ (by simp [RecordCall.Agrees, CallPhase.finished])
        | ok result =>
            refine sound.settle proper kept index ⟨by simp [CallPhase.finished],
              by simp [CallPhase.finished], fun known returned => ?_⟩ ?_
            · cases returned
              exact .of_row listed names read
            · -- No call returned under this key before the insertion.
              intro other present known earlier returned before shared
              obtain ⟨row, found, _⟩ := (sound.calls other present).granted earlier before
              rw [← shared, absent] at found
              cases found
      · rw [db]
        rw [names.key] at listed
        cases read : stored.receipt.result with
        | error reason => exact sound.fail index reason
        | ok result => exact sound.grant index listed live (names.of_same same) read
  · exact sound.fail index _

theorem next (sound : state.Sound support) (label : LedgerStep) :
    (state.next support label).Sound support := by
  cases label with
  | call arguments now => exact sound.call arguments now
  | lookup index =>
      dsimp only [LedgerState.next]
      split
      · next waiting => exact sound.lookup index waiting
      · exact sound
  | insert index =>
      dsimp only [LedgerState.next]
      split
      · next waiting => exact sound.insert index waiting
      · exact sound
  | register externalActionId =>
      have kept : state.db.Kept { state.db with actions := externalActionId :: state.db.actions } :=
        ⟨(ReceiptDb.Kept.refl state.db).rows, fun _ listed => listed⟩
      exact ⟨⟨sound.proper.keyed, sound.proper.readable⟩,
        fun call listed => (sound.calls call listed).kept kept, sound.agree⟩
  | erase key =>
      exact ⟨sound.proper.of_erase key, fun call listed =>
        (sound.calls call listed).kept (.of_erase key), sound.agree⟩

end Sound

theorem Sound.next_kept (sound : state.Sound support) (label : LedgerStep) :
    state.db.Kept (state.next support label).db := by
  cases label with
  | call arguments now => exact .refl _
  | lookup index =>
      dsimp only [LedgerState.next]
      split
      · exact .refl _
      · exact .refl _
  | insert index =>
      dsimp only [LedgerState.next]
      split
      · next arguments receipt waiting =>
          have frozen := ((sound.calls _ (List.mem_of_getElem? waiting)).inserting receipt rfl).2
          dsimp only [afterInsert]
          split
          · next stored added =>
              rcases sound.proper.addOrGet_ok frozen added with ⟨receipts, inserted, db, _⟩ |
                ⟨db, _⟩
              · rw [db]
                exact .of_insert inserted
              · rw [db]
                exact .refl _
          · exact .refl _
      · exact .refl _
  | register externalActionId => exact ⟨(ReceiptDb.Kept.refl state.db).rows, fun _ listed => listed⟩
  | erase key => exact .of_erase key

theorem next_offered {now : Time} (offered : candidate support arguments now = .ok receipt) :
    state.next support (.call arguments now) =
      { state with calls := state.calls ++ [⟨arguments, .looking receipt⟩] } := by
  dsimp only [LedgerState.next, afterCall]
  rw [offered]

theorem next_refused {now : Time} (refused : candidate support arguments now = .error reason) :
    state.next support (.call arguments now) =
      { state with calls := state.calls ++ [⟨arguments, .failed reason⟩] } := by
  dsimp only [LedgerState.next, afterCall]
  rw [refused]

theorem reachable_sound (reached : (ledgerMachine support).Reachable state) :
    state.Sound support := by
  refine reached.invariant (LedgerState.Sound support) ?_ ?_
  · intro origin initial
    constructor
    · exact initial.2
    · simp [initial.1]
    · simp [initial.1]
  · intro before label after sound stepped
    rw [show after = before.next support label from stepped]
    exact sound.next label

/-- A later state keeps the receipts. -/
def Keeps (before after : LedgerState φ) : Prop := before.db.Kept after.db

theorem run_kept (reached : (ledgerMachine support).Reachable state)
    (run : (ledgerMachine support).Run state after) : state.db.Kept after.db := by
  change state.Keeps after
  refine run.relates (fun first => ReceiptDb.Kept.refl first.db)
    (fun first second => ReceiptDb.Kept.trans first second) ?_
  intro before label after taken stepped
  rw [show after = before.next support label from stepped]
  exact (reachable_sound (reached.continue taken)).next_kept label

/-- A step of a call that meets another committed action. -/
theorem Sound.differs (sound : state.Sound support) {index : Nat} {call : RecordCall φ}
    (present : state.calls[index]? = some call)
    (found : state.db.receipts.get? call.arguments.key = some row)
    (differs : row.Differs call.arguments) :
    (∀ receipt, call.phase = .looking receipt → state.next support (.lookup index) =
        { state with
          calls := state.calls.set index ⟨call.arguments, .failed (state.db.refusal row)⟩ }) ∧
      (∀ receipt, call.phase = .inserting receipt → state.next support (.insert index) =
        { state with
          calls := state.calls.set index ⟨call.arguments, .failed (state.db.refusal row)⟩ }) ∧
      ∀ result, call.phase ≠ .returned result := by
  have held := sound.calls call (List.mem_of_getElem? present)
  obtain ⟨arguments, phase⟩ := call
  refine ⟨fun receipt looking => ?_, fun receipt inserting => ?_, fun result returned => ?_⟩
  · cases looking
    obtain ⟨names, _⟩ := held.looking receipt rfl
    obtain ⟨reason, refused, mapped⟩ := sound.proper.lookup_differs names found differs
    dsimp only [LedgerState.next]
    rw [present]
    dsimp only [afterLookup]
    rw [refused]
    dsimp only
    rw [mapped]
  · cases inserting
    obtain ⟨names, frozen⟩ := held.inserting receipt rfl
    obtain ⟨reason, refused, mapped⟩ := sound.proper.addOrGet_differs names frozen found differs
    dsimp only [LedgerState.next]
    rw [present]
    dsimp only [afterInsert]
    rw [refused]
    dsimp only
    rw [mapped]
  · obtain ⟨known, listed, names, _⟩ := held.granted result returned
    rw [found] at listed
    cases listed
    exact differs.not_names names

end LedgerState

/-- One receipt is committed under a key and kept, every call that returns gives its result, and a
call for another action is refused without a write. -/
theorem record_once {support : HashSupport φ} {state : LedgerState φ}
    (reached : (ledgerMachine support).Reachable state) :
    (∀ first ∈ state.db.receipts.rows, ∀ second ∈ state.db.receipts.rows, first.key = second.key →
      first = second) ∧
      (∀ after, (ledgerMachine support).Run state after → state.db.Kept after.db) ∧
      (∀ call ∈ state.calls, ∀ result, call.phase = .returned result →
        state.db.Granted call.arguments result) ∧
      (∀ call ∈ state.calls, ∀ other ∈ state.calls, call.Agrees other) ∧
      ∀ (index : Nat) (call : RecordCall φ) (row : ConnectorActionReceipt φ),
        state.calls[index]? = some call →
        state.db.receipts.get? call.arguments.key = some row → row.Differs call.arguments →
        (∀ receipt, call.phase = .looking receipt → state.next support (.lookup index) =
            { state with
              calls := state.calls.set index ⟨call.arguments, .failed (state.db.refusal row)⟩ }) ∧
          (∀ receipt, call.phase = .inserting receipt → state.next support (.insert index) =
            { state with
              calls := state.calls.set index ⟨call.arguments, .failed (state.db.refusal row)⟩ }) ∧
          ∀ result, call.phase ≠ .returned result := by
  have sound := LedgerState.reachable_sound reached
  refine ⟨fun first listed second present same => ?_,
    fun after run => LedgerState.run_kept reached run,
    fun call listed => (sound.calls call listed).granted, sound.agree,
    fun index call row present found differs => sound.differs present found differs⟩
  obtain ⟨key, found⟩ := Table.mem_rows_iff.mp listed
  obtain ⟨other, known⟩ := Table.mem_rows_iff.mp present
  have keys : key = other := by
    rw [← sound.proper.keyed key first found, ← sound.proper.keyed other second known]
    exact same
  rw [keys, known] at found
  cases found
  rfl

namespace CommittedReceipt

def support : HashSupport Bool where
  text := acuteSupport
  numbers := halfSupport
  sha256 _ := String.ofList (List.replicate 64 'a')

def receipt : ConnectorActionReceipt Bool where
  externalActionId := "external.first"
  connectorBindingId := "mock.crm.default"
  idempotencyKey := "key.first"
  actionHash := String.ofList (List.replicate 64 'b')
  capabilityId := "crm.write"
  receiptId := "mock-receipt:first"
  status := "mock_succeeded"
  safeMetadata := .mapping []
  createdAt := 0

def committed : LedgerState Bool where
  db :=
    { receipts := Table.empty.put receipt.key receipt, actions := ["external.first"], erased := [] }
  calls := []

/-- Another action under the same key, with no provider version. -/
def unversioned : RecordArguments where
  externalActionId := "external.second"
  bindingId := "mock.crm.default"
  idempotencyKey := "key.first"
  actionHash := String.ofList (List.replicate 64 'b')
  capabilityId := "crm.write"
  connectorFamily := "crm"
  providerVersion := ""

def another : RecordArguments := { unversioned with providerVersion := "1" }

theorem another_differs : receipt.Differs another := .inl (by decide)

theorem another_settled (members : List (Option String × PythonValue Bool))
    (keys : (members.map Prod.fst).Nodup) (plain : members.all fun member => match member with
      | (some key, .str value) => acuteSupport.nfc key = key && acuteSupport.nfc value = value
      | (some key, .bool _) => acuteSupport.nfc key = key
      | _ => false) : (PythonValue.mapping members).Settled acuteSupport halfSupport := by
  refine ⟨keys, ?_⟩
  clear keys
  induction members with
  | nil => trivial
  | cons member rest ih =>
      rw [List.all_cons, Bool.and_eq_true] at plain
      obtain ⟨head, tail⟩ := plain
      obtain ⟨key, item⟩ := member
      cases key with
      | none => cases head
      | some key =>
          cases item with
          | str value =>
              simp only [Bool.and_eq_true, decide_eq_true_eq] at head
              exact ⟨⟨rfl, congrArg some head.1⟩, head.2, ih tail⟩
          | bool value =>
              simp only [decide_eq_true_eq] at head
              exact ⟨⟨rfl, congrArg some head⟩, trivial, ih tail⟩
          | null | int | float | mapping | sequence | other => cases head

def anotherResult : ConnectorWriteResult Bool where
  receiptId := "mock-receipt:" ++ String.ofList
    ((String.ofList (List.replicate 64 'a')).toList.take 32)
  status := "mock_succeeded"
  safeMetadata := [(some "mode", .str "mock"), (some "external_side_effect", .bool false),
    (some "capability_id", .str another.capabilityId), (some "provider_kind", .str "connector"),
    (some "provider_name", .str another.connectorFamily),
      (some "provider_version", .str another.providerVersion)]

theorem another_result : buildMockWriteResult support another = .ok anotherResult := by
  obtain ⟨⟨bytes, facts⟩, _⟩ := frozen_settled support (another_settled
    [(some "binding_id", .str another.bindingId),
      (some "idempotency_key", .str another.idempotencyKey),
      (some "action_hash", .str another.actionHash),
        (some "capability_id", .str another.capabilityId)]
    (by decide) (by decide)) rfl ""
  have checked : ConnectorWriteResult.build anotherResult.receiptId anotherResult.status
    anotherResult.safeMetadata =
      .ok anotherResult := by
    simp only [ConnectorWriteResult.build, bind_ok, pure_ok, require_ok]
    exact ⟨(), by decide, (), by decide, (), by decide, trivial⟩
  simp only [buildMockWriteResult, bind_ok, require_ok]
  exact ⟨(), by decide, bytes, facts, checked⟩

theorem another_offered : ∃ offer, candidate support another 0 = .ok offer := by
  obtain ⟨_, frozen, metadata⟩ := frozen_settled support
    (another_settled anotherResult.safeMetadata (by decide) (by decide)) rfl
      "connector receipt safe metadata"
  simp only [candidate, another_result, ConnectorActionReceipt.build, bind_ok, pure_ok, requireId,
    requireDigest, require_ok]
  exact ⟨_, anotherResult, rfl, (), by decide, (), by decide, (), by decide, (), by decide, (),
    by decide, (), by decide, (), by decide, frozen, metadata, rfl⟩

theorem refusal_another : committed.db.refusal receipt = {
    code := "idempotency_conflict"
    message := "durable connector receipt conflicts with the exact action" } :=
  if_neg List.not_mem_nil

theorem receipt_read : receipt.build support = .ok receipt := by
  simp only [ConnectorActionReceipt.build, bind_ok, pure_ok, requireId, requireDigest, require_ok]
  exact ⟨(), by decide, (), by decide, (), by decide, (), by decide, (), by decide, (), by decide,
    (), by decide, _, frozen_empty _, rfl⟩

theorem committed_found : committed.db.receipts.get? another.key = some receipt := rfl

theorem committed_row (key : String × String) (row : ConnectorActionReceipt Bool)
    (found : committed.db.receipts.get? key = some row) : key = receipt.key ∧ row = receipt := by
  rw [show committed.db.receipts = Table.empty.put receipt.key receipt from rfl,
    Table.get?_put] at found
  split at found
  · next same =>
      cases found
      exact ⟨same, rfl⟩
  · cases found

theorem committed_reachable : (ledgerMachine support).Reachable committed := by
  refine .start ⟨rfl, ⟨fun key row found => ?_, fun key row found => ?_⟩⟩
  · obtain ⟨rfl, rfl⟩ := committed_row key row found
    rfl
  · obtain ⟨rfl, rfl⟩ := committed_row key row found
    exact receipt_read

/-- A call for another action under the key is made, and its lookup is refused. -/
theorem record_once_other : ((committed.next support (.call another 0)).next support (.lookup 0)) =
    { committed with calls := [⟨another, .failed {
      code := "idempotency_conflict"
      message := "durable connector receipt conflicts with the exact action" }⟩] } := by
  obtain ⟨offer, offered⟩ := another_offered
  have reached : (ledgerMachine support).Reachable (committed.next support (.call another 0)) :=
    committed_reachable.next (.call another 0) rfl
  rw [LedgerState.next_offered offered] at reached ⊢
  have refused := (record_once reached).2.2.2.2 0
    ⟨another, .looking offer⟩ receipt rfl committed_found another_differs
  rw [refused.1 offer rfl, refusal_another]
  rfl

/-- The version is checked before the ledger is read. -/
theorem unversioned_invalid :
    (ledgerMachine support).Reachable (committed.next support (.call unversioned 0)) ∧
    committed.db.receipts.get? unversioned.key = some receipt ∧ receipt.Differs unversioned ∧
      (committed.next support (.call unversioned 0)).calls = [⟨unversioned, .failed {
        code := "invalid_request"
        message := "mock receipt requires its exact trusted provider identity" }⟩] := by
  have refused : candidate support unversioned 0 = .error {
      code := "invalid_request"
      message := "mock receipt requires its exact trusted provider identity" } := by
    rw [candidate, buildMockWriteResult, require, if_neg (by decide)]
    rfl
  refine ⟨committed_reachable.next (.call unversioned 0) rfl, rfl, .inl (by decide), ?_⟩
  rw [LedgerState.next_refused refused]
  rfl

end CommittedReceipt

end MarketingAgents.DurableMock
