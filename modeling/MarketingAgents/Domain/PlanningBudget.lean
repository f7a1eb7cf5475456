import Mathlib.Data.List.Dedup
import Mathlib.Data.List.Sort
import MarketingAgents.Domain.Rejection
import MarketingAgents.Domain.RuntimePolicy

namespace MarketingAgents

/-! # Deterministic planning budgets -/

/-- Per-template graph and adapter-call ceilings. -/
structure BudgetPolicySnapshot where
  maxSteps : Nat
  maxModelCalls : Nat
  maxToolCalls : Nat
  maxInputBytes : Nat
  maxInputFieldBytes : Nat
  maxOutputBytes : Nat
  maxModelOutputTokens : Nat
deriving DecidableEq

/-- Trusted run-wide planning ceilings. -/
structure RunRuntimePolicy where
  maxSteps : Nat
  maxModelCalls : Nat
  maxToolCalls : Nat
  runTimeoutSeconds : Nat
deriving DecidableEq

def plannerOutputFamily : String := "planner-output"

/-- Classify model, tool and no-call accounting from the connector family. -/
def attemptKindForConnector (connectorFamily : String) : AttemptKind :=
  if connectorFamily = "model" then .model
  else if connectorFamily ∈ ["artifact", plannerOutputFamily] then .noCall
  else .tool

/-- The input of the planning budget for one step. -/
structure StepRuntimeDemand where
  templateId : String
  connectorFamily : String
  policy : StepRuntimePolicy
  runSeconds : Nat
  budget : BudgetPolicySnapshot
  templateNamed : templateId ≠ ""
  familyNamed : connectorFamily ≠ ""
  classified : policy.attemptKind = attemptKindForConnector connectorFamily
deriving DecidableEq

/-- What all steps of one template have to agree on: retry, timeout, budget and rate limit. -/
structure TemplatePolicy where
  maxAttempts : Nat
  backoff : RetryBackoff
  stepSeconds : Nat
  runSeconds : Nat
  budget : BudgetPolicySnapshot
  rateLimit : RateLimitPolicySnapshot
deriving DecidableEq

def StepRuntimeDemand.templatePolicy (demand : StepRuntimeDemand) : TemplatePolicy where
  maxAttempts := demand.policy.maxAttempts
  backoff := demand.policy.backoff
  stepSeconds := demand.policy.stepSeconds
  runSeconds := demand.runSeconds
  budget := demand.budget
  rateLimit := demand.policy.rateLimit

structure RuntimePlanTotals where
  stepCount : Nat
  modelCalls : Nat
  toolCalls : Nat
deriving DecidableEq

/-- How many of the demands are charged to one counter. -/
def demandedCalls (kind : AttemptKind) (demands : List StepRuntimeDemand) : Nat :=
  demands.countP (·.policy.attemptKind = kind)

/-- The templates of the demands, once each and in order. -/
def templateIds (demands : List StepRuntimeDemand) : List String :=
  (demands.map (·.templateId)).dedup.insertionSort (· ≤ ·)

/-- The steps of one template have one policy and stay within its ceilings. -/
def validateTemplateBudget (demands : List StepRuntimeDemand) (templateId : String) :
    Except Rejection Unit := do
  let group := demands.filter (·.templateId = templateId)
  let selected := "selected template " ++ templateId
  match group with
  | [] => return ()
  | first :: _ =>
      require (∀ demand ∈ group, demand.templatePolicy = first.templatePolicy)
        "template_policy_drift" (selected ++ " has contradictory runtime policies")
      require (group.length ≤ first.budget.maxSteps) "template_step_budget_exceeded"
        (selected ++ " exceeds its step budget")
      require (demandedCalls .model group ≤ first.budget.maxModelCalls)
        "template_model_budget_exceeded" (selected ++ " exceeds its model-call budget")
      require (demandedCalls .tool group ≤ first.budget.maxToolCalls)
        "template_tool_budget_exceeded" (selected ++ " exceeds its tool-call budget")

/-- Enforce template-group and run-wide logical operation ceilings. -/
def validateRuntimePlanBudget (runPolicy : RunRuntimePolicy) (demands : List StepRuntimeDemand) :
    Except Rejection RuntimePlanTotals := do
  require (demands ≠ []) "ValueError" "runtime demands must be a nonempty exact immutable tuple"
  forM (templateIds demands) (validateTemplateBudget demands)
  let totals : RuntimePlanTotals := {
    stepCount := demands.length
    modelCalls := demandedCalls .model demands
    toolCalls := demandedCalls .tool demands }
  require (totals.stepCount ≤ runPolicy.maxSteps) "run_step_budget_exceeded"
    "planned graph exceeds the run step budget"
  require (totals.modelCalls ≤ runPolicy.maxModelCalls) "run_model_budget_exceeded"
    "planned model operations exceed the run model-call budget"
  require (totals.toolCalls ≤ runPolicy.maxToolCalls) "run_tool_budget_exceeded"
    "planned tool operations exceed the run tool-call budget"
  return totals

/-- Every template of an accepted plan keeps one policy and its own ceilings. -/
structure TemplateWithinBudget (group : List StepRuntimeDemand)
    (policy : TemplatePolicy) : Prop where
  uniform : ∀ demand ∈ group, demand.templatePolicy = policy
  steps : group.length ≤ policy.budget.maxSteps
  modelCalls : demandedCalls .model group ≤ policy.budget.maxModelCalls
  toolCalls : demandedCalls .tool group ≤ policy.budget.maxToolCalls

section

variable {runPolicy : RunRuntimePolicy} {demands : List StepRuntimeDemand}
  {totals : RuntimePlanTotals}

theorem mem_templateIds {templateId : String} :
    templateId ∈ templateIds demands ↔ ∃ demand ∈ demands, demand.templateId = templateId := by
  simp [templateIds]

theorem forM_ok {α : Type} {members : List α} {check : α → Except Rejection Unit} :
    forM members check = .ok () ↔ ∀ member ∈ members, check member = .ok () := by
  induction members with
  | nil => simp [pure, Except.pure]
  | cons first rest ih =>
      simp only [List.forM_cons, bind_ok, List.forall_mem_cons]
      constructor
      · rintro ⟨_, passed, remaining⟩
        exact ⟨passed, ih.mp remaining⟩
      · rintro ⟨passed, remaining⟩
        exact ⟨(), passed, ih.mpr remaining⟩

theorem validateTemplateBudget_ok {demand : StepRuntimeDemand} (listed : demand ∈ demands)
    (accepted : validateTemplateBudget demands demand.templateId = .ok ()) :
    TemplateWithinBudget (demands.filter (·.templateId = demand.templateId))
      demand.templatePolicy := by
  have member : demand ∈ demands.filter (·.templateId = demand.templateId) :=
    List.mem_filter.mpr ⟨listed, by simp⟩
  unfold validateTemplateBudget at accepted
  generalize demands.filter (·.templateId = demand.templateId) = group at accepted member ⊢
  cases group with
  | nil => simp at member
  | cons first rest =>
      simp only [bind_ok, require_ok] at accepted
      obtain ⟨_, uniform, _, steps, _, modelCalls, toolCalls⟩ := accepted
      have same := uniform demand member
      rw [same]
      exact ⟨uniform, steps, modelCalls, toolCalls⟩

theorem validateRuntimePlanBudget_ok
    (accepted : validateRuntimePlanBudget runPolicy demands = .ok totals) :
    (∀ demand ∈ demands, TemplateWithinBudget (demands.filter (·.templateId = demand.templateId))
        demand.templatePolicy) ∧
      demands.length ≤ runPolicy.maxSteps ∧
      demandedCalls .model demands ≤ runPolicy.maxModelCalls ∧
      demandedCalls .tool demands ≤ runPolicy.maxToolCalls := by
  simp only [validateRuntimePlanBudget, bind_ok, require_ok, pure_ok] at accepted
  obtain ⟨_, _, _, templates, _, steps, _, modelCalls, _, toolCalls, _⟩ := accepted
  refine ⟨?_, steps, modelCalls, toolCalls⟩
  intro demand listed
  exact validateTemplateBudget_ok listed
    (forM_ok.mp templates _ (mem_templateIds.mpr ⟨demand, listed, rfl⟩))

end

end MarketingAgents
