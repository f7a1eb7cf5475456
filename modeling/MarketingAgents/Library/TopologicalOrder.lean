import Mathlib.Data.List.Lex
import Mathlib.Data.Set.Finite.Basic
import Mathlib.Order.WellFoundedSet

namespace MarketingAgents.Library

/-! # Topological orders

Nodes come with the nodes that they depend on and with a rank. The search holds
the nodes without open dependencies, takes the one of least rank, and counts
down the open dependencies of its dependents.
-/

namespace Topological

section

variable {α : Type} (deps : α → List α)

/-- Every dependency stands before its dependents. -/
def Follows : List α → List α → Prop
  | _, [] => True
  | done, node :: rest =>
    (∀ dependency ∈ deps node, dependency ∈ done) ∧ Follows (done ++ [node]) rest

theorem follows_iff {done order : List α} : Follows deps done order ↔
    ∀ before node after, order = before ++ node :: after →
      ∀ dependency ∈ deps node, dependency ∈ done ++ before := by
  induction order generalizing done with
  | nil => simp [Follows]
  | cons first rest ih =>
      rw [Follows, ih]
      constructor
      · rintro ⟨head, tail⟩ before node after split dependency member
        cases before with
        | nil =>
            cases split
            exact List.mem_append_left _ (head dependency member)
        | cons other before =>
            cases split
            simpa using tail before node after rfl dependency member
      · intro all
        constructor
        · intro dependency member
          simpa using all [] first rest rfl dependency member
        · intro before node after split dependency member
          simpa using all (first :: before) node after (by rw [split]; rfl) dependency member

/-- The dependencies of what is ordered are ordered. -/
theorem Follows.closed {done order : List α} (follows : Follows deps done order) :
    ∀ node ∈ order, ∀ dependency ∈ deps node, dependency ∈ done ++ order := by
  intro node member dependency needed
  obtain ⟨before, after, rfl⟩ := List.append_of_mem member
  have earlier := (follows_iff deps).mp follows before node after rfl dependency needed
  rcases List.mem_append.mp earlier with first | second
  · exact List.mem_append_left _ first
  · exact List.mem_append_right _ (List.mem_append_left _ second)

/-- One node is a dependency of the other. -/
def Precedes (dependency node : α) : Prop := dependency ∈ deps node

theorem Follows.acc {done order : List α} (follows : Follows deps done order)
    (before : ∀ node ∈ done, Acc (Precedes deps) node) :
      ∀ node ∈ order, Acc (Precedes deps) node := by
  induction order generalizing done with
  | nil => simp
  | cons first rest ih =>
      obtain ⟨head, tail⟩ := follows
      have here : Acc (Precedes deps) first :=
        ⟨first, fun dependency member => before dependency (head dependency member)⟩
      intro node member
      rcases List.mem_cons.mp member with rfl | later
      · exact here
      · refine ih tail (fun other known => ?_) node later
        rcases List.mem_append.mp known with earlier | last
        · exact before other earlier
        · rw [List.mem_singleton.mp last]
          exact here

theorem acc_not_self {relation : α → α → Prop} (acc : Acc relation node) :
    ¬ relation node node := by
  induction acc with
  | intro node _ ih => exact fun self => ih node self self

/-- Nothing in an order that follows the dependencies lies on a cycle. -/
theorem Follows.acyclic {order : List α} (follows : Follows deps [] order) :
    ∀ node ∈ order, ¬ Relation.TransGen (Precedes deps) node node :=
  fun node member => acc_not_self ((follows.acc deps (by simp) node member).transGen)

end

section

variable {α κ : Type} [LinearOrder κ] (deps : α → List α) (rank : α → κ) (nodes : List α)

/-- Every node is the least of those that could stand in its place. -/
def Greedy : List α → List α → Prop
  | _, [] => True
  | done, node :: rest =>
      (∀ other ∈ nodes, other ∉ done → (∀ dependency ∈ deps other, dependency ∈ done) →
        rank node ≤ rank other) ∧
        Greedy (done ++ [node]) rest

theorem greedy_append {done first second : List α} :
    Greedy deps rank nodes done (first ++ second) ↔
      Greedy deps rank nodes done first ∧ Greedy deps rank nodes (done ++ first) second := by
  induction first generalizing done with
  | nil => simp [Greedy]
  | cons node rest ih =>
      rw [List.cons_append, Greedy, Greedy, ih, and_assoc, List.append_assoc]
      rfl

theorem follows_append {done first second : List α} :
    Follows deps done (first ++ second) ↔ Follows deps done first ∧
      Follows deps (done ++ first) second := by
  induction first generalizing done with
  | nil => simp [Follows]
  | cons node rest ih =>
      rw [List.cons_append, Follows, Follows, ih, and_assoc, List.append_assoc]
      rfl

variable {deps rank nodes}

/-- A greedy order is lexicographically least. -/
theorem Greedy.least (injective : Function.Injective rank) {done order other : List α}
    (greedy : Greedy deps rank nodes done order) (follows : Follows deps done other)
    (inside : ∀ node ∈ other, node ∈ nodes ∧ node ∉ done) (distinct : other.Nodup)
    (length : other.length = order.length) :
    order = other ∨ List.Lex (· < ·) (order.map rank) (other.map rank) := by
  induction order generalizing done other with
  | nil => exact .inl (List.eq_nil_of_length_eq_zero length).symm
  | cons node rest ih =>
      cases other with
      | nil => simp at length
      | cons first others =>
          obtain ⟨least, greedy⟩ := greedy
          obtain ⟨ready, follows⟩ := follows
          obtain ⟨⟨known, fresh⟩, beyond⟩ := List.forall_mem_cons.mp inside
          rcases (least first known fresh ready).lt_or_eq with less | equal
          · exact .inr (.rel less)
          · obtain rfl := injective equal
            obtain ⟨alone, distinct⟩ := List.nodup_cons.mp distinct
            have later : ∀ other ∈ others, other ∈ nodes ∧ other ∉ done ++ [node] := by
              intro other member
              refine ⟨(beyond other member).1, fun known => ?_⟩
              rcases List.mem_append.mp known with earlier | last
              · exact (beyond other member).2 earlier
              · rw [List.mem_singleton.mp last] at member
                exact alone member
            rcases ih greedy follows later distinct (Nat.succ.inj length) with rfl | less
            · exact .inl rfl
            · exact .inr (.cons less)

end

section

variable {α κ : Type} [LinearOrder κ]

/-- The node of least rank with the others. -/
def heappop (rank : α → κ) : List α → Option (α × List α)
  | [] => none
  | node :: rest =>
      match heappop rank rest with
      | none => some (node, [])
      | some (least, others) =>
        if rank node ≤ rank least then some (node, rest) else some (least, node :: others)

theorem heappop_none {rank : α → κ} {nodes : List α} (empty : heappop rank nodes = none) :
    nodes = [] := by
  cases nodes with
  | nil => rfl
  | cons node rest =>
      rw [heappop] at empty
      split at empty
      · cases empty
      · split at empty <;> cases empty

theorem heappop_some {rank : α → κ} {nodes others : List α} {least : α}
    (popped : heappop rank nodes = some (least, others)) :
    (least :: others).Perm nodes ∧ ∀ node ∈ nodes, rank least ≤ rank node := by
  induction nodes generalizing least others with
  | nil => cases popped
  | cons node rest ih =>
      rw [heappop] at popped
      split at popped
      · next empty =>
          cases popped
          rw [heappop_none empty]
          exact ⟨.refl _, by simp⟩
      · next smallest remaining found =>
          obtain ⟨perm, below⟩ := ih found
          split at popped
          · next first =>
              cases popped
              exact ⟨.refl _, List.forall_mem_cons.mpr
                ⟨le_refl _, fun other member => first.trans (below other member)⟩⟩
          · next later =>
              cases popped
              refine ⟨(List.Perm.swap ..).trans (perm.cons node),
                List.forall_mem_cons.mpr ⟨?_, below⟩⟩
              exact (not_le.mp later).le

structure Search (α : Type) where
  ready : List α
  indegree : α → Nat
  ordered : List α

end

section

variable {α κ : Type} [DecidableEq α] [LinearOrder κ]

namespace Search

/-- One dependent has an open dependency less. -/
def release (search : Search α) (dependent : α) : Search α where
  indegree := Function.update search.indegree dependent (search.indegree dependent - 1)
  ready := if search.indegree dependent - 1 = 0 then dependent :: search.ready else search.ready
  ordered := search.ordered

def run (rank : α → κ) (outgoing : α → List α) : Nat → Search α → Search α
  | 0, search => search
  | fuel + 1, search =>
      match heappop rank search.ready with
      | none => search
      | some (node, ready) =>
          run rank outgoing fuel
            ((outgoing node).foldl release { search with
              ready, ordered := search.ordered ++ [node] })

end Search

theorem foldl_release (dependents : List α) (distinct : dependents.Nodup) (search : Search α) :
    let after := dependents.foldl Search.release search
    after.ordered = search.ordered ∧
      (∀ node, after.indegree node = if node ∈ dependents then search.indegree node - 1
        else search.indegree node) ∧
      ∃ freed, after.ready = freed ++ search.ready ∧ freed.Nodup ∧
        ∀ node, node ∈ freed ↔ node ∈ dependents ∧ search.indegree node - 1 = 0 := by
  induction dependents generalizing search with
  | nil => exact ⟨rfl, fun node => (if_neg (by simp)).symm, [], rfl, List.nodup_nil, by simp⟩
  | cons first rest ih =>
      obtain ⟨alone, distinct⟩ := List.nodup_cons.mp distinct
      obtain ⟨ordered, indegree, freed, ready, nodup, mem⟩ := ih distinct (search.release first)
      refine ⟨ordered, fun node => ?_, ?_⟩
      · rw [List.foldl_cons, indegree]
        by_cases same : node = first
        · subst same
          rw [if_neg alone, if_pos List.mem_cons_self]
          exact Function.update_self ..
        · have kept : (search.release first).indegree node = search.indegree node :=
            Function.update_of_ne same ..
          rw [kept]
          simp only [List.mem_cons, same, false_or]
      · have kept : ∀ node ∈ rest, (search.release first).indegree node = search.indegree node := by
          intro node member
          apply Function.update_of_ne
          rintro rfl
          exact alone member
        have later : ∀ node, node ∈ freed ↔ node ∈ rest ∧ search.indegree node - 1 = 0 := by
          intro node
          rw [mem]
          constructor
          · exact fun ⟨member, zero⟩ => ⟨member, kept node member ▸ zero⟩
          · exact fun ⟨member, zero⟩ => ⟨member, (kept node member).symm ▸ zero⟩
        by_cases zero : search.indegree first - 1 = 0
        · refine ⟨freed ++ [first], ?_, ?_, fun node => ?_⟩
          · rw [List.foldl_cons, ready, List.append_assoc]
            exact congrArg (freed ++ ·) (if_pos zero)
          · rw [List.nodup_append]
            refine ⟨nodup, List.nodup_singleton _, fun node member other last same => ?_⟩
            rw [List.mem_singleton.mp last] at same
            rw [same] at member
            exact alone ((later first).mp member).1
          · rw [List.mem_append, later, List.mem_singleton, List.mem_cons]
            constructor
            · rintro (⟨member, empty⟩ | rfl)
              · exact ⟨.inr member, empty⟩
              · exact ⟨.inl rfl, zero⟩
            · rintro ⟨rfl | member, empty⟩
              · exact .inr rfl
              · exact .inl ⟨member, empty⟩
        · refine ⟨freed, ?_, nodup, fun node => ?_⟩
          · rw [List.foldl_cons, ready]
            exact congrArg (freed ++ ·) (if_neg zero)
          · rw [later, List.mem_cons]
            constructor
            · exact fun ⟨member, empty⟩ => ⟨.inr member, empty⟩
            · rintro ⟨rfl | member, empty⟩
              · exact absurd empty zero
              · exact ⟨member, empty⟩

end

section

variable {α κ : Type} [DecidableEq α] [LinearOrder κ]

/-- Distinct nodes with their distinct dependencies among them, and their dependents. -/
structure Wired (nodes : List α) (deps outgoing : α → List α) : Prop where
  distinct : nodes.Nodup
  dependencies : ∀ node ∈ nodes, (deps node).Nodup ∧ ∀ dependency ∈ deps node, dependency ∈ nodes
  dependents : ∀ node, (outgoing node).Nodup ∧
    ∀ dependent, dependent ∈ outgoing node ↔ dependent ∈ nodes ∧ node ∈ deps dependent

structure Search.Sound (nodes : List α) (deps : α → List α) (rank : α → κ)
    (search : Search α) : Prop where
  ordered : search.ordered.Nodup
  inside : ∀ node ∈ search.ordered, node ∈ nodes
  ready : search.ready.Nodup
  ready_iff : ∀ node, node ∈ search.ready ↔
    node ∈ nodes ∧ node ∉ search.ordered ∧ ∀ dependency ∈ deps node, dependency ∈ search.ordered
  count : ∀ node ∈ nodes, search.indegree node = ((deps node).filter (· ∉ search.ordered)).length
  follows : Follows deps [] search.ordered
  greedy : Greedy deps rank nodes [] search.ordered

theorem none_open {listed done : List α} :
    (listed.filter (· ∉ done)).length = 0 ↔ ∀ dependency ∈ listed, dependency ∈ done := by
  rw [List.length_eq_zero_iff, List.filter_eq_nil_iff]
  exact forall₂_congr fun dependency _ => by rw [decide_eq_true_eq, not_not]

/-- The open dependencies once one more node is ordered. -/
theorem open_append {listed done : List α} {node : α} (distinct : listed.Nodup)
    (fresh : node ∉ done) :
    (listed.filter (· ∉ done ++ [node])).length =
      if node ∈ listed then (listed.filter (· ∉ done)).length - 1
        else (listed.filter (· ∉ done)).length := by
  have split : listed.filter (· ∉ done ++ [node]) = (listed.filter (· ∉ done)).erase node := by
    rw [(distinct.filter _).erase_eq_filter, List.filter_filter]
    apply List.filter_congr
    intro other _
    by_cases same : other = node
    · simp [same]
    · simp [same]
  rw [split]
  by_cases member : node ∈ listed
  · rw [if_pos member, List.length_erase_of_mem (by simp [member, fresh])]
  · rw [if_neg member, List.erase_of_not_mem (by simp [member])]

namespace Search.Sound

variable {nodes : List α} {deps outgoing : α → List α} {rank : α → κ} {search : Search α}

theorem step (sound : search.Sound nodes deps rank) (wired : Wired nodes deps outgoing) {node : α}
    {ready : List α} (popped : heappop rank search.ready = some (node, ready)) :
    Search.Sound nodes deps rank
      ((outgoing node).foldl Search.release { search with
        ready, ordered := search.ordered ++ [node] }) := by
  obtain ⟨perm, least⟩ := heappop_some popped
  obtain ⟨known, fresh, available⟩ := (sound.ready_iff node).mp (perm.subset List.mem_cons_self)
  obtain ⟨alone, rest⟩ := List.nodup_cons.mp (perm.nodup_iff.mpr sound.ready)
  obtain ⟨dependents, dependent_iff⟩ := wired.dependents node
  obtain ⟨ordered, indegree, freed, freedReady, freedNodup, freed_iff⟩ :=
    foldl_release (outgoing node) dependents { search with
      ready, ordered := search.ordered ++ [node] }
  have remaining : ∀ other, other ∈ ready ↔ other ∈ search.ready ∧ other ≠ node := by
    intro other
    rw [← perm.mem_iff, List.mem_cons]
    constructor
    · exact fun member => ⟨.inr member, fun same => alone (same ▸ member)⟩
    · rintro ⟨rfl | member, differs⟩
      · exact absurd rfl differs
      · exact member
  have count : ∀ other ∈ nodes, ((deps other).filter (· ∉ search.ordered ++ [node])).length =
      if node ∈ deps other then search.indegree other - 1 else search.indegree other := by
    intro other member
    rw [open_append (wired.dependencies other member).1 fresh, sound.count other member]
  -- A dependent of the popped node was neither ordered nor ready.
  have waiting : ∀ other, other ∈ outgoing node → other ∉ search.ordered ∧ other ≠ node := by
    intro other member
    obtain ⟨_, needed⟩ := (dependent_iff other).mp member
    constructor
    · exact fun earlier => fresh
        (by simpa using sound.follows.closed deps other earlier node needed)
    · rintro rfl
      exact fresh (available other needed)
  have freed_open : ∀ other, other ∈ freed ↔
      other ∈ outgoing node ∧ ∀ dependency ∈ deps other, dependency ∈ search.ordered ++ [node] := by
    intro other
    rw [freed_iff]
    constructor
    · rintro ⟨member, zero⟩
      obtain ⟨inside, needed⟩ := (dependent_iff other).mp member
      have left := count other inside
      rw [if_pos needed, zero] at left
      exact ⟨member, none_open.mp left⟩
    · rintro ⟨member, all⟩
      obtain ⟨inside, needed⟩ := (dependent_iff other).mp member
      have left := count other inside
      rw [if_pos needed, none_open.mpr all] at left
      exact ⟨member, left.symm⟩
  refine
    { ordered := ?_, inside := ?_, ready := ?_, ready_iff := ?_, count := ?_, follows := ?_,
      greedy := ?_ }
  · rw [ordered]
    refine List.nodup_append.mpr ⟨sound.ordered, List.nodup_singleton _,
      fun other member last same equal => ?_⟩
    rw [equal, List.mem_singleton.mp same] at member
    exact fresh member
  · rw [ordered]
    intro other member
    rcases List.mem_append.mp member with earlier | last
    · exact sound.inside other earlier
    · rw [List.mem_singleton.mp last]
      exact known
  · rw [freedReady]
    refine List.nodup_append.mpr ⟨freedNodup, rest, fun other new waits member equal => ?_⟩
    rw [← equal] at member
    obtain ⟨dependent, _⟩ := (freed_iff other).mp new
    obtain ⟨_, needed⟩ := (dependent_iff other).mp dependent
    exact fresh (((sound.ready_iff other).mp ((remaining other).mp member).1).2.2 node needed)
  · rw [freedReady, ordered]
    intro other
    rw [List.mem_append, freed_open, remaining, sound.ready_iff]
    constructor
    · rintro (⟨member, all⟩ | ⟨⟨inside, new, all⟩, differs⟩)
      · obtain ⟨unordered, differs⟩ := waiting other member
        exact ⟨((dependent_iff other).mp member).1, by simp [unordered, differs], all⟩
      · exact ⟨inside, by simp [new, differs], fun dependency listed =>
          List.mem_append_left _ (all dependency listed)⟩
    · rintro ⟨inside, new, all⟩
      by_cases needed : node ∈ deps other
      · exact .inl ⟨(dependent_iff other).mpr ⟨inside, needed⟩, all⟩
      · right
        simp only [List.mem_append, List.mem_singleton, not_or] at new
        refine ⟨⟨inside, new.1, fun dependency listed => ?_⟩, new.2⟩
        rcases List.mem_append.mp (all dependency listed) with earlier | last
        · exact earlier
        · rw [List.mem_singleton.mp last] at listed
          exact absurd listed needed
  · rw [ordered]
    intro other member
    rw [indegree, count other member]
    by_cases needed : node ∈ deps other
    · rw [if_pos needed, if_pos ((dependent_iff other).mpr ⟨member, needed⟩)]
    · rw [if_neg needed, if_neg fun dependent => needed ((dependent_iff other).mp dependent).2]
  · rw [ordered]
    exact (follows_append deps).mpr ⟨sound.follows, by simpa [Follows] using available⟩
  · rw [ordered]
    refine (greedy_append deps rank nodes).mpr ⟨sound.greedy, ?_, trivial⟩
    intro other inside new all
    exact least other ((sound.ready_iff other).mpr ⟨inside, by simpa using new, by simpa using all⟩)

/-- With fuel for every node the search ends with nothing ready. -/
theorem run (sound : search.Sound nodes deps rank) (wired : Wired nodes deps outgoing)
    (fuel : Nat) :
    (search.run rank outgoing fuel).Sound nodes deps rank ∧
      (nodes.length ≤ search.ordered.length + fuel →
        (search.run rank outgoing fuel).ready = []) := by
  induction fuel generalizing search with
  | zero =>
      refine ⟨sound, fun enough => List.eq_nil_iff_forall_not_mem.mpr fun node waits => ?_⟩
      obtain ⟨inside, new, _⟩ := (sound.ready_iff node).mp waits
      have all : search.ordered.Perm nodes :=
        (List.subperm_of_subset sound.ordered sound.inside).perm_of_length_le enough
      exact new (all.mem_iff.mpr inside)
  | succ fuel ih =>
      rw [Search.run]
      split
      · next empty => exact ⟨sound, fun _ => heappop_none empty⟩
      · next node ready popped =>
          obtain ⟨after, ends⟩ := ih (sound.step wired popped)
          refine ⟨after, fun enough => ends ?_⟩
          rw [(foldl_release (outgoing node) (wired.dependents node).1 _).1, List.length_append,
            List.length_singleton]
          omega

/-- A search that ended has ordered every node of an acyclic graph. -/
theorem perm_of_acyclic (sound : search.Sound nodes deps rank) (wired : Wired nodes deps outgoing)
    (ended : search.ready = [])
    (acyclic : ∀ node ∈ nodes, ¬ Relation.TransGen (Precedes deps) node node) :
    search.ordered.Perm nodes := by
  refine (List.perm_ext_iff_of_nodup sound.ordered wired.distinct).mpr fun node =>
    ⟨sound.inside node, fun inside => ?_⟩
  by_contra new
  let above (dependency node : α) : Prop :=
    Relation.TransGen (Precedes deps) dependency node ∧ node ∈ nodes
  have strict : IsStrictOrder α above :=
    { irrefl := fun node ⟨cycle, member⟩ => acyclic node member cycle
      trans := fun _ _ _ first second => ⟨first.1.trans second.1, second.2⟩ }
  have finite : {node | node ∈ nodes ∧ node ∉ search.ordered}.Finite :=
    nodes.finite_toSet.subset fun _ member => member.1
  -- A minimal node without a place would be ready.
  obtain ⟨⟨least, member, open_⟩, _, minimal⟩ :=
    (finite.wellFoundedOn (r := above)).has_min Set.univ ⟨⟨node, inside, new⟩, trivial⟩
  have ready : least ∈ search.ready := by
    refine (sound.ready_iff least).mpr ⟨member, open_, fun dependency needed => ?_⟩
    by_contra missing
    have below := (wired.dependencies least member).2 dependency needed
    exact minimal ⟨dependency, below, missing⟩ trivial ⟨.single needed, member⟩
  rw [ended] at ready
  exact List.not_mem_nil ready

end Search.Sound

/-- The state before any node is ordered. -/
def Search.start (nodes : List α) (deps : α → List α) : Search α where
  ready := nodes.filter fun node => (deps node).length = 0
  indegree node := (deps node).length
  ordered := []

theorem Search.start_sound {nodes : List α} {deps outgoing : α → List α} (rank : α → κ)
    (wired : Wired nodes deps outgoing) : (Search.start nodes deps).Sound nodes deps rank where
  ordered := List.nodup_nil
  inside := by simp [Search.start]
  ready := wired.distinct.filter _
  ready_iff node := by
    simp [Search.start, List.eq_nil_iff_forall_not_mem]
  count node inside := by simp [Search.start]
  follows := trivial
  greedy := trivial

/-- The nodes in the order in which the search takes them. -/
def order (rank : α → κ) (outgoing deps : α → List α) (nodes : List α) : List α :=
  ((Search.start nodes deps).run rank outgoing nodes.length).ordered

variable {nodes : List α} {deps outgoing : α → List α} {rank : α → κ}

/-- Every node is ordered exactly when no node lies on a cycle. -/
theorem order_complete (rank : α → κ) (wired : Wired nodes deps outgoing) :
    (order rank outgoing deps nodes).length = nodes.length ↔
      ∀ node ∈ nodes, ¬ Relation.TransGen (Precedes deps) node node := by
  obtain ⟨sound, ends⟩ := (Search.start_sound rank wired).run wired nodes.length
  constructor
  · intro complete node inside
    have perm := (List.subperm_of_subset sound.ordered sound.inside).perm_of_length_le complete.ge
    exact sound.follows.acyclic deps node (perm.mem_iff.mpr inside)
  · exact fun acyclic => (sound.perm_of_acyclic wired
      (ends (Nat.le_add_left _ _)) acyclic).length_eq

/-- A complete order is the least of all orders that follow the dependencies. -/
theorem order_least (wired : Wired nodes deps outgoing) (injective : Function.Injective rank)
    (complete : (order rank outgoing deps nodes).length = nodes.length) :
    (order rank outgoing deps nodes).Perm nodes ∧ Follows deps [] (order rank outgoing deps nodes) ∧
      ∀ other : List α, other.Perm nodes → Follows deps [] other →
        order rank outgoing deps nodes = other ∨
          List.Lex (· < ·) ((order rank outgoing deps nodes).map rank) (other.map rank) := by
  obtain ⟨sound, _⟩ := (Search.start_sound rank wired).run wired nodes.length
  have perm := (List.subperm_of_subset sound.ordered sound.inside).perm_of_length_le complete.ge
  refine ⟨perm, sound.follows, fun other same follows => ?_⟩
  refine sound.greedy.least injective follows (fun node member => ⟨same.mem_iff.mp member, by simp⟩)
    (same.nodup_iff.mpr wired.distinct) ?_
  exact same.length_eq.trans perm.length_eq.symm

end

end Topological

end MarketingAgents.Library
