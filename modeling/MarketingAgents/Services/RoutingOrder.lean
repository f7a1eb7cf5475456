import MarketingAgents.Domain.CanonicalForm
import MarketingAgents.Library.RelatedLists
import MarketingAgents.Services.InstanceRouting

namespace MarketingAgents

open Library

/-! # Routing and enumeration order

A router reads its sources only through lookups by distinct identifiers and
through one total order, so no enumeration order reaches its decisions.
-/

section

variable {σ τ : Type} {identifier : σ → String} {field duplicate : String}
  {snapshot : σ → Except Rejection τ}

theorem snapshotSources_ok :
    snapshotSources identifier field duplicate snapshot known sources = .ok taken ↔
      (∀ source ∈ sources, requireStableId (identifier source) field "catalog_drift" = .ok () ∧
        identifier source ∉ known) ∧ (sources.map identifier).Nodup ∧
      List.Forall₂ (fun source snapshotted => snapshot source = .ok snapshotted) sources taken := by
  induction sources generalizing known taken with
  | nil => simp [snapshotSources, eq_comm]
  | cons source rest ih =>
      simp only [snapshotSources, bind_ok, require_ok, pure_ok, ih, List.forall_mem_cons,
        List.map_cons, List.nodup_cons, List.forall₂_cons_left_iff]
      constructor
      · rintro ⟨_, stable, _, fresh, first, snapped, others, ⟨each, distinct, all⟩, rfl⟩
        refine ⟨⟨⟨stable, fresh⟩, fun other member => ⟨(each other member).1, fun old => ?_⟩⟩,
          ⟨?_, distinct⟩, first, others, snapped, all, rfl⟩
        · exact (each other member).2 (List.mem_cons_of_mem _ old)
        · intro repeated
          obtain ⟨other, member, same⟩ := List.mem_map.mp repeated
          exact (each other member).2 (same ▸ List.mem_cons_self)
      · rintro ⟨⟨⟨stable, fresh⟩, each⟩, ⟨unrepeated, distinct⟩, first, others, snapped, all, rfl⟩
        refine ⟨(), stable, (), fresh, first, snapped, others,
          ⟨fun other member => ⟨(each other member).1, ?_⟩, distinct, all⟩, rfl⟩
        intro known
        rcases List.mem_cons.mp known with same | old
        · exact unrepeated (same ▸ List.mem_map_of_mem member)
        · exact (each other member).2 old

theorem snapshotSources_perm {sources others : List σ} (perm : sources.Perm others)
    (accepted : snapshotSources identifier field duplicate snapshot [] sources = .ok taken) :
    ∃ rearranged, snapshotSources identifier field duplicate snapshot [] others = .ok rearranged ∧
      taken.Perm rearranged := by
  obtain ⟨each, distinct, all⟩ := snapshotSources_ok.mp accepted
  obtain ⟨rearranged, related, permuted⟩ := List.perm_comp_forall₂ perm.symm all
  refine ⟨rearranged, snapshotSources_ok.mpr ⟨fun source member =>
    each source (perm.symm.subset member),
    (perm.map identifier).nodup_iff.mp distinct, related⟩, permuted.symm⟩

end

section

variable {α : Type} {identifier : α → String} {left right : List α}

theorem find?_perm (distinct : (left.map identifier).Nodup) (perm : left.Perm right)
    (wanted : String) :
    (left.find? fun entry => identifier entry = wanted) = right.find? fun entry =>
      identifier entry = wanted := by
  have found : ∀ {entries : List α}, (entries.map identifier).Nodup → ∀ {entry},
      entry ∈ entries → identifier entry = wanted →
      (entries.find? fun other => identifier other = wanted) = some entry := by
    intro entries unique entry member same
    cases search : entries.find? fun other => identifier other = wanted with
    | none => simpa [same] using List.find?_eq_none.mp search entry member
    | some other =>
        have known : identifier other = wanted := by simpa using List.find?_some search
        have equal := List.inj_on_of_nodup_map unique (List.mem_of_find?_eq_some search) member
          (known.trans same.symm)
        rw [equal]
  cases search : left.find? fun entry => identifier entry = wanted with
  | none =>
      refine (List.find?_eq_none.mpr fun entry member => ?_).symm
      exact List.find?_eq_none.mp search entry (perm.symm.subset member)
  | some entry =>
      have known : identifier entry = wanted := by simpa using List.find?_some search
      exact (found ((perm.map identifier).nodup_iff.mp distinct)
        (perm.subset (List.mem_of_find?_eq_some search)) known).symm

end

instance : Std.Total InstanceSnapshot.Before := ⟨fun left right => le_total left.order right.order⟩

instance : IsTrans InstanceSnapshot InstanceSnapshot.Before := ⟨fun _ _ _ => le_trans⟩

instance : Std.Total RoutingSlot.Before := ⟨fun _ _ => le_total _ _⟩

instance : IsTrans RoutingSlot RoutingSlot.Before := ⟨fun _ _ _ => le_trans⟩

theorem InstanceSnapshot.order_id {left right : InstanceSnapshot}
    (same : left.order = right.order) :
    left.id = right.id := by
  simp only [InstanceSnapshot.order, EmbeddingLike.apply_eq_iff_eq, Prod.mk.injEq] at same
  exact same.2.2

theorem orderedInstances_perm {left right : List InstanceSnapshot}
    (distinct : (left.map (·.id)).Nodup) (perm : left.Perm right) :
    left.insertionSort InstanceSnapshot.Before = right.insertionSort InstanceSnapshot.Before :=
  insertionSort_eq_of_perm (fun _ inLeft _ other before after =>
    List.inj_on_of_nodup_map distinct inLeft other
      (InstanceSnapshot.order_id (le_antisymm before after))) perm

theorem orderedSlots_perm {left right : List RoutingSlot} (distinct : (left.map (·.key)).Nodup)
    (perm : left.Perm right) : left.insertionSort RoutingSlot.Before =
      right.insertionSort RoutingSlot.Before := by
  refine insertionSort_eq_of_perm (fun _ inLeft _ other before after => ?_) perm
  have same := le_antisymm before after
  simp only [EmbeddingLike.apply_eq_iff_eq, Prod.mk.injEq] at same
  exact List.inj_on_of_nodup_map distinct inLeft other same.2

section

variable {σ τ : Type} {identifier : σ → String} {field duplicate : String}
  {snapshot : σ → Except Rejection τ}

theorem snapshotSources_ids {key : τ → String}
    (kept : ∀ {source snapshotted}, snapshot source = .ok snapshotted →
      key snapshotted = identifier source)
    (accepted : snapshotSources identifier field duplicate snapshot [] sources = .ok taken) :
    (taken.map key).Nodup := by
  obtain ⟨_, distinct, all⟩ := snapshotSources_ok.mp accepted
  have same : sources.map identifier = taken.map key :=
    map_eq_of_related all fun snapped => (kept snapped).symm
  exact same ▸ distinct

end

theorem RoutingTemplateSource.snapshot_id {source : RoutingTemplateSource}
    {capabilityIds : Finset String} (accepted : source.snapshot capabilityIds = .ok snapshotted) :
    snapshotted.id = source.id := by
  simp only [RoutingTemplateSource.snapshot, bind_ok, pure_ok] at accepted
  obtain ⟨_, _, _, _, _, _, _, _, triggers, _, _, _, rfl⟩ := accepted
  rfl

theorem RoutingInstanceSource.snapshot_id {source : RoutingInstanceSource}
    {templateIds : Finset String} (accepted : source.snapshot templateIds = .ok snapshotted) :
    snapshotted.id = source.id := by
  simp only [RoutingInstanceSource.snapshot, bind_ok, pure_ok] at accepted
  obtain ⟨_, _, _, _, _, _, _, _, _, _, rfl⟩ := accepted
  rfl

theorem snapshotCapabilities_perm {left right : List String} (perm : left.Perm right)
    (accepted : snapshotCapabilities left = .ok known) :
      snapshotCapabilities right = .ok known := by
  simp only [snapshotCapabilities, bind_ok, require_ok, requireEach_ok, pure_ok] at accepted ⊢
  obtain ⟨_, distinct, _, each, rfl⟩ := accepted
  exact ⟨(), perm.nodup_iff.mp distinct, (), fun value member =>
    each value (perm.symm.subset member), (List.toFinset_eq_of_perm _ _ perm).symm⟩

variable {catalogContentHash : String} {templates otherTemplates : List RoutingTemplateSource}
variable {instances otherInstances : List RoutingInstanceSource}
  {capabilityIds otherCapabilityIds : List String}

theorem create_perm (templatesPerm : templates.Perm otherTemplates)
    (instancesPerm : instances.Perm otherInstances)
    (capabilitiesPerm : capabilityIds.Perm otherCapabilityIds)
    (created : DeterministicInstanceRouter.create catalogContentHash templates instances
      capabilityIds = .ok router) :
    ∃ other, DeterministicInstanceRouter.create catalogContentHash otherTemplates otherInstances
      otherCapabilityIds = .ok other ∧ other.catalog = router.catalog := by
  simp only [DeterministicInstanceRouter.create, bind_ok, pure_ok] at created ⊢
  obtain ⟨_, hashed, known, capabilities, taken, templated, placed, instanced, rfl⟩ := created
  obtain ⟨takenOther, templatedOther, takenPerm⟩ := snapshotSources_perm templatesPerm templated
  have sameIds : (taken.map (·.id)).toFinset = (takenOther.map (·.id)).toFinset :=
    List.toFinset_eq_of_perm _ _ (takenPerm.map _)
  obtain ⟨placedOther, instancedOther, placedPerm⟩ := snapshotSources_perm instancesPerm instanced
  have templateIds := snapshotSources_ids RoutingTemplateSource.snapshot_id templated
  have instanceIds := snapshotSources_ids RoutingInstanceSource.snapshot_id instanced
  refine ⟨_, ⟨(), hashed, known, snapshotCapabilities_perm capabilitiesPerm capabilities,
    takenOther, templatedOther, placedOther, ?_, rfl⟩, ?_⟩
  · simpa only [snapshotInstances, ← sameIds] using instancedOther
  · simp only [DeterministicInstanceRouter.catalog, RoutingCatalog.mk.injEq, true_and]
    exact ⟨funext fun id => (find?_perm templateIds takenPerm id).symm,
      funext fun id => (find?_perm instanceIds placedPerm id).symm,
        (orderedInstances_perm instanceIds placedPerm).symm⟩

theorem create_slots_perm (definition : WorkflowRoutingDefinition)
    (perm : definition.requiredSlots.Perm slots) :
    ({ definition with requiredSlots := slots } : WorkflowRoutingDefinition).create =
      definition.create := by
  have lengths := perm.length_eq
  have keys := (perm.map (·.key)).nodup_iff
  have orders := (perm.map (·.sourceOrder)).nodup_iff
  by_cases distinct : (definition.requiredSlots.map (·.key)).Nodup
  · have sorted := orderedSlots_perm distinct perm
    simp only [WorkflowRoutingDefinition.create, ← lengths, ← keys, ← orders, sorted]
  · have never : ¬((definition.requiredSlots.map (·.key)).Nodup ∧
        (definition.requiredSlots.map (·.sourceOrder)).Nodup) := fun both => distinct both.1
    simp only [WorkflowRoutingDefinition.create, ← lengths, ← keys, ← orders, require,
      never, if_false]
    rfl

/-- Routing is independent of enumeration order: the sources and the slots may come in any order;
a router and a definition are built in one exactly when they are built in the other, and then
every request gets the same decision, the same bytes to hash and the same result, or the same
error. -/
theorem routing_order_independent {φ : Type} (text : TextSupport) (numbers : NumberSupport φ)
    (sha256Hex : ByteArray → String) (definition : WorkflowRoutingDefinition)
    {slots : List RoutingSlot}
    (templatesPerm : templates.Perm otherTemplates) (instancesPerm : instances.Perm otherInstances)
    (capabilitiesPerm : capabilityIds.Perm otherCapabilityIds)
    (slotsPerm : definition.requiredSlots.Perm slots) :
    ({ definition with requiredSlots := slots } : WorkflowRoutingDefinition).create =
      definition.create ∧
    ((∃ reason otherReason,
        DeterministicInstanceRouter.create catalogContentHash templates instances capabilityIds =
          .error reason ∧
        DeterministicInstanceRouter.create catalogContentHash otherTemplates otherInstances
          otherCapabilityIds = .error otherReason) ∨
      ∃ router other,
        DeterministicInstanceRouter.create catalogContentHash templates instances capabilityIds =
          .ok router ∧
        DeterministicInstanceRouter.create catalogContentHash otherTemplates otherInstances
          otherCapabilityIds = .ok other ∧
        ∀ request created, definition.create = .ok created →
          other.catalog.decide request created = router.catalog.decide request created ∧
          (other.catalog.decide request created >>= fun decision =>
            decision.preimage text numbers request created) =
          (router.catalog.decide request created >>= fun decision =>
            decision.preimage text numbers request created) ∧
          other.route text numbers sha256Hex request created =
              router.route text numbers sha256Hex request created) := by
  refine ⟨create_slots_perm definition slotsPerm, ?_⟩
  cases created : DeterministicInstanceRouter.create catalogContentHash templates instances
    capabilityIds with
  | ok router =>
      obtain ⟨other, createdOther, same⟩ :=
        create_perm templatesPerm instancesPerm capabilitiesPerm created
      have hash : other.catalogContentHash = router.catalogContentHash :=
        congrArg RoutingCatalog.catalogContentHash same
      refine .inr ⟨router, other, rfl, createdOther,
        fun request created _ => ⟨by rw [same], by rw [same], ?_⟩⟩
      simp only [DeterministicInstanceRouter.route, same, hash]
  | error reason =>
      cases createdOther :
        DeterministicInstanceRouter.create catalogContentHash otherTemplates otherInstances
          otherCapabilityIds with
      | error otherReason => exact .inl ⟨reason, otherReason, rfl, rfl⟩
      | ok other =>
          obtain ⟨router, impossible, _⟩ :=
            create_perm templatesPerm.symm instancesPerm.symm capabilitiesPerm.symm createdOther
          cases created.symm.trans impossible

namespace RoutingExample

def catalogHash : String := "catalog-sha256-v1:" ++ String.ofList (List.replicate 64 'c')

def writer : RoutingTemplateSource := ⟨"template.writer", 1, ["cap.write"], ["manual"]⟩

def analyst : RoutingTemplateSource :=
  ⟨"template.analyst", 2, ["cap.write", "cap.analyse"], ["manual", "schedule"]⟩

def target : RoutingInstanceSource := ⟨"instance.writer", "template.writer", 1, true, none, 1⟩

def firstAnalyst : RoutingInstanceSource :=
  ⟨"instance.analyst-1", "template.analyst", 2, true, some 1, 1⟩

def secondAnalyst : RoutingInstanceSource :=
  ⟨"instance.analyst-2", "template.analyst", 2, true, some 1, 4⟩

def drafting : RoutingSlot := ⟨"draft", 1, ["template.writer"], ["cap.write"]⟩

def analysing : RoutingSlot :=
  ⟨"analyse", 2, ["template.analyst", "template.writer"], ["cap.analyse"]⟩

def workflow : WorkflowRoutingDefinition :=
  ⟨"workflow.report", 1, catalogHash, [.manual], ["template.writer"], [analysing, drafting]⟩

def request : RoutingRequest := ⟨"instance.writer", "trigger-1", "console", .manual⟩

theorem accepted :
    (DeterministicInstanceRouter.create catalogHash [writer, analyst]
      [target, firstAnalyst, secondAnalyst]
      ["cap.write", "cap.analyse"]).isOk = true := by decide +kernel

theorem workflow_accepted : workflow.create.isOk = true := by decide +kernel

end RoutingExample

open RoutingExample in
/-- The sources and the slots taken backwards decide the same request the same way. -/
theorem routing_order_independent_backwards :
    ∃ router other created,
      DeterministicInstanceRouter.create catalogHash [writer, analyst]
        [target, firstAnalyst, secondAnalyst] ["cap.write", "cap.analyse"] = .ok router ∧
      DeterministicInstanceRouter.create catalogHash [analyst, writer]
        [secondAnalyst, firstAnalyst, target] ["cap.analyse", "cap.write"] = .ok other ∧
      workflow.create = .ok created ∧
      ({ workflow with requiredSlots := [drafting, analysing] } :
        WorkflowRoutingDefinition).create = .ok created ∧
      other.catalog.decide request created = router.catalog.decide request created ∧
      other.route acuteSupport halfSupport (fun bytes => toString bytes.size) request created =
        router.route acuteSupport halfSupport (fun bytes => toString bytes.size)
            request created := by
  have templatesPerm : [writer, analyst].Perm [analyst, writer] := List.Perm.swap _ _ _
  have instancesPerm : [target, firstAnalyst, secondAnalyst].Perm
    [secondAnalyst, firstAnalyst, target] :=
    (List.reverse_perm [target, firstAnalyst, secondAnalyst]).symm
  have capabilitiesPerm : ["cap.write", "cap.analyse"].Perm ["cap.analyse", "cap.write"] :=
    List.Perm.swap _ _ _
  have slotsPerm : workflow.requiredSlots.Perm [drafting, analysing] := List.Perm.swap _ _ _
  obtain ⟨slotsSame, outcome⟩ := routing_order_independent acuteSupport halfSupport
    (fun bytes => toString bytes.size) workflow templatesPerm instancesPerm
      capabilitiesPerm slotsPerm
  have validated : ∃ created, workflow.create = .ok created := by
    have accepted := workflow_accepted
    cases shape : workflow.create with
    | ok created => exact ⟨created, rfl⟩
    | error reason => simp [shape, Except.isOk, Except.toBool] at accepted
  obtain ⟨created, validated⟩ := validated
  obtain ⟨reason, _, (refused : DeterministicInstanceRouter.create catalogHash _ _ _ = _), _⟩ |
    ⟨router, other, first, second, same⟩ := outcome
  · have accepted := RoutingExample.accepted
    simp [refused, Except.isOk, Except.toBool] at accepted
  · obtain ⟨decided, _, routed⟩ := same request created validated
    exact ⟨router, other, created, first, second, validated, slotsSame.trans validated,
      decided, routed⟩

end MarketingAgents
