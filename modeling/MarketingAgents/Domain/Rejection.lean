import Mathlib.Data.Nat.Basic

namespace MarketingAgents

/-- A refused operation: its stable code, its message and when to try again. -/
structure Rejection where
  code : String
  message : String
  retryAfterSeconds : Option Nat := none
deriving DecidableEq, Repr

def reject {α : Type} (code message : String) : Except Rejection α :=
  .error { code, message }

/-- Continue only when a check holds. -/
def require (check : Prop) [Decidable check] (code message : String) : Except Rejection Unit :=
  if check then .ok () else reject code message

/-- Continue with a value that has to be present. -/
def requireSome {α : Type} (value : Option α) (code message : String) : Except Rejection α :=
  match value with
  | some value => .ok value
  | none => reject code message

/-- The members of a list that pass a test, refused with the first member it refuses. -/
def selectWhere {α : Type} (test : α → Except Rejection Bool) : List α → Except Rejection (List α)
  | [] => .ok []
  | first :: rest => do
      let selected ← test first
      let others ← selectWhere test rest
      return if selected then first :: others else others

section

variable {α β : Type} {check : Prop} [Decidable check] {code message : String}

theorem bind_ok {first : Except Rejection α} {rest : α → Except Rejection β} :
    first >>= rest = .ok result ↔ ∃ value, first = .ok value ∧ rest value = .ok result := by
  cases first with
  | error reason =>
      constructor
      · intro impossible
        cases impossible
      · rintro ⟨_, impossible, _⟩
        cases impossible
  | ok value =>
      constructor
      · exact fun same => ⟨value, rfl, same⟩
      · rintro ⟨_, same, rest⟩
        cases same
        exact rest

theorem pure_ok : (pure value : Except Rejection α) = .ok result ↔ value = result :=
  ⟨fun same => by cases same; rfl, fun same => by cases same; rfl⟩

theorem require_ok : require check code message = .ok done ↔ check := by
  unfold require reject
  split <;> simp_all

theorem requireSome_ok :
    requireSome value code message = .ok result ↔ value = some result := by
  cases value <;> simp [requireSome, reject]

theorem selectWhere_ok {test : α → Except Rejection Bool} :
    selectWhere test members = .ok selected ↔
      (∀ member ∈ members, ∃ passes, test member = .ok passes) ∧
      selected = members.filter fun member => (test member).toOption.getD false := by
  induction members generalizing selected with
  | nil => simp [selectWhere, eq_comm]
  | cons first rest ih =>
      simp only [selectWhere, bind_ok, pure_ok, List.forall_mem_cons]
      constructor
      · rintro ⟨passes, tested, others, remaining, rfl⟩
        obtain ⟨known, rfl⟩ := ih.mp remaining
        exact ⟨⟨⟨passes, tested⟩, known⟩, by cases passes <;> simp [tested, Except.toOption]⟩
      · rintro ⟨⟨⟨passes, tested⟩, known⟩, rfl⟩
        refine ⟨passes, tested, _, ih.mpr ⟨known, rfl⟩, ?_⟩
        cases passes <;> simp [tested, Except.toOption]

theorem ok_of_toOption {outcome : Except Rejection α} (same : outcome.toOption = some value) :
    outcome = .ok value := by
  cases outcome with
  | error rejection => cases same
  | ok result => exact congrArg Except.ok (Option.some.inj same)

theorem bind_error {first : Except Rejection α} {rest : α → Except Rejection β} :
    first >>= rest = .error reason ↔
      first = .error reason ∨ ∃ value, first = .ok value ∧ rest value = .error reason := by
  cases first with
  | error other =>
      constructor
      · intro same
        cases same
        exact .inl rfl
      · rintro (same | ⟨_, impossible, _⟩)
        · cases same
          rfl
        · cases impossible
  | ok value =>
      constructor
      · exact fun refused => .inr ⟨value, rfl, refused⟩
      · rintro (impossible | ⟨_, same, refused⟩)
        · cases impossible
        · cases same
          exact refused

theorem pure_error :
    (pure value : Except Rejection α) = .error reason ↔ False :=
  ⟨fun impossible => (by cases impossible), False.elim⟩

theorem require_error :
    require check code message = .error reason ↔ ¬check ∧ reason = { code, message } := by
  unfold require reject
  split <;> simp_all [eq_comm]

theorem requireSome_error :
    requireSome value code message = .error reason ↔ value = none ∧ reason = { code, message } := by
  cases value <;> simp [requireSome, reject, eq_comm]

theorem reject_ok : reject code message = .ok result ↔ False := by
  simp [reject]

end

end MarketingAgents
