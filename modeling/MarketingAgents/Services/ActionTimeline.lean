import MarketingAgents.Library.Path
import MarketingAgents.Services.AuditedTransactions

namespace MarketingAgents

open Library

/-! # Transactions that witness what they do to an action

A transaction witnesses an action when the events it appends about it lead from
the row it found to the row it left.
-/

/-- The version and the state of an action; an unregistered one has neither. -/
def Database.actionPosition (db : Database) (actionId : String) :
    Nat × Option ExternalActionState :=
  match db.action? actionId with
  | none => (0, none)
  | some stored => (stored.action.version, some stored.action.state)

/-- An event leads from one version of its action to the next. -/
def ActionAudit.Moves (before : Nat × Option ExternalActionState) (event : ActionAudit)
    (after : Nat × Option ExternalActionState) : Prop :=
  event.mutationVersion = before.1 + 1 ∧ event.previousState = before.2 ∧
    after = (event.mutationVersion, some event.newState)

def aboutAction (actionId : String) (events : List ActionAudit) : List ActionAudit :=
  events.filter fun event => event.actionId = actionId

/-- The events about an action lead from its row before a transaction to its row after it. -/
def Audits (actionId : String) (db : Database) (events : List ActionAudit)
    (after : Database) : Prop :=
  Path ActionAudit.Moves (db.actionPosition actionId) (aboutAction actionId events)
    (after.actionPosition actionId)

variable {db middle after : Database} {actionId other : String} {events : List ActionAudit}
variable {event : ActionAudit} {stored updated : StoredAction}

theorem Database.actionPosition_congr (same : after.action? actionId = db.action? actionId) :
    after.actionPosition actionId = db.actionPosition actionId := by
  rw [actionPosition, same, actionPosition]

theorem Database.actionPosition_of_found (found : db.action? actionId = some stored) :
    db.actionPosition actionId = (stored.action.version, some stored.action.state) := by
  rw [actionPosition, found]

theorem aboutAction_append {others : List ActionAudit} :
    aboutAction actionId (events ++ others) = aboutAction actionId events ++
      aboutAction actionId others :=
  List.filter_append ..

theorem aboutAction_eq_nil : aboutAction actionId events = [] ↔
    ∀ event ∈ events, event.actionId ≠ actionId := by
  simp [aboutAction, List.filter_eq_nil_iff]

namespace Audits

theorem unchanged (silent : ∀ event ∈ events, event.actionId ≠ actionId)
    (same : after.action? actionId = db.action? actionId) : Audits actionId db events after := by
  unfold Audits
  rw [aboutAction_eq_nil.mpr silent, Database.actionPosition_congr same]
  exact .nil

theorem nothing (same : after.actions = db.actions) : Audits actionId db [] after :=
  unchanged (by simp) (by rw [Database.action?, same, Database.action?])

theorem append (first : Audits actionId db events middle)
    (second : Audits actionId middle others after) :
      Audits actionId db (events ++ others) after := by
  unfold Audits
  rw [aboutAction_append]
  exact Path.append first second

theorem foreign (differs : event.actionId ≠ actionId)
    (same : after.action? actionId = db.action? actionId) :
    Audits actionId db [event] after :=
  unchanged (by simpa using differs) same

theorem of_witnesses (found : db.action? actionId = some stored)
    (left : after.action? actionId = some updated)
    (witnesses : AuditEventFactory.Witnesses actionId stored.action updated.action event) :
    Audits actionId db [event] after := by
  have listed : aboutAction actionId [event] = [event] := by simp [aboutAction, witnesses.action]
  unfold Audits
  rw [listed, Database.actionPosition_of_found found, Database.actionPosition_of_found left]
  refine .single ⟨?_, witnesses.previousState, ?_⟩
  · rw [witnesses.version, witnesses.successor]
  · rw [witnesses.version, witnesses.newState]

theorem stored_row (found : db.action? focal = some stored)
    (left : after.actions = db.actions.set focal updated)
    (witnesses : AuditEventFactory.Witnesses focal stored.action updated.action event) :
    Audits actionId db [event] after := by
  by_cases same : actionId = focal
  · subst same
    refine of_witnesses found ?_ witnesses
    rw [Database.action?, left]
    exact Table.get?_set_self found
  · refine foreign (fun about => same (about.symm.trans witnesses.action)) ?_
    rw [Database.action?, left]
    exact Table.get?_set_ne same

end Audits

theorem eventsOf_about {α : Type} {own : α → Except Rejection (List ActionAudit)} {key : α → String}
    {members : List α} (built : eventsOf own members = .ok events)
    (named : ∀ member ∈ members, ∀ ones, own member = .ok ones →
      ∀ event ∈ ones, event.actionId = key member) :
    ∀ event ∈ events, event.actionId ∈ members.map key := by
  induction members generalizing events with
  | nil =>
      cases built
      simp
  | cons first rest ih =>
      intro event listed
      simp only [eventsOf, bind_ok, pure_ok] at built
      obtain ⟨ones, mine, remaining, theirs, rfl⟩ := built
      rcases List.mem_append.mp listed with here | later
      · rw [named first (by simp) ones mine event here]
        simp
      · exact List.mem_cons_of_mem _
          (ih theirs (fun member known => named member (by simp [known])) event later)

theorem eventsOf_audits {α : Type} {own : α → Except Rejection (List ActionAudit)}
    {key : α → String} {members : List α} (built : eventsOf own members = .ok events)
    (distinct : (members.map key).Nodup)
    (each : ∀ member ∈ members, ∀ ones, own member = .ok ones →
      (∀ event ∈ ones, event.actionId = key member) ∧ Audits (key member) db ones after)
    (others : actionId ∉ members.map key → after.action? actionId = db.action? actionId) :
    Audits actionId db events after := by
  induction members generalizing events with
  | nil =>
      cases built
      exact .unchanged (by simp) (others (by simp))
  | cons first rest ih =>
      simp only [List.map_cons, List.nodup_cons] at distinct
      simp only [eventsOf, bind_ok, pure_ok] at built
      obtain ⟨ones, mine, remaining, theirs, rfl⟩ := built
      obtain ⟨firstNamed, firstAudits⟩ := each first (by simp) ones mine
      have restNamed := eventsOf_about theirs fun member known ones mine =>
        (each member (by simp [known]) ones mine).1
      by_cases same : actionId = key first
      · subst same
        -- The later members are about other actions, so their events are silent here.
        have silent : aboutAction (key first) remaining = [] :=
          aboutAction_eq_nil.mpr fun event listed equal =>
            distinct.1 (equal ▸ restNamed event listed)
        unfold Audits
        rw [aboutAction_append, silent, List.append_nil]
        exact firstAudits
      · have silent : aboutAction actionId ones = [] :=
          aboutAction_eq_nil.mpr fun event listed equal =>
            same (equal.symm.trans (firstNamed event listed))
        unfold Audits
        rw [aboutAction_append, silent, List.nil_append]
        exact ih theirs distinct.2 (fun member known => each member (by simp [known]))
            fun unlisted =>
          others (by simp [same, unlisted])

theorem eventsOf_witnesses {α : Type} {own : α → Except Rejection (List ActionAudit)}
    {members : List α}
    (key : α → String) (row : α → StoredAction) (built : eventsOf own members = .ok events)
    (distinct : (members.map key).Nodup)
    (current : ∀ member ∈ members, db.action? (key member) = some (row member))
    (each : ∀ member ∈ members, ∀ ones, own member = .ok ones →
      ∃ now, after.action? (key member) = some now ∧
      (ones = [] ∧ now.action = (row member).action ∨ ∃ event, ones = [event] ∧
        AuditEventFactory.Witnesses (key member) (row member).action now.action event))
    (others : actionId ∉ members.map key → after.action? actionId = db.action? actionId) :
    Audits actionId db events after := by
  refine eventsOf_audits built distinct (fun member known ones mine => ?_) others
  obtain ⟨now, lookup, ⟨rfl, same⟩ | ⟨event, rfl, witnesses⟩⟩ := each member known ones mine
  · refine ⟨by simp, ?_⟩
    unfold Audits
    rw [Database.actionPosition_of_found (current member known),
      Database.actionPosition_of_found lookup, same]
    exact .nil
  · exact ⟨by simp [witnesses.action], .of_witnesses (current member known) lookup witnesses⟩

end MarketingAgents
