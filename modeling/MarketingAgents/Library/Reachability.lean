import Mathlib.Logic.Relation

namespace MarketingAgents.Library

/-! # Worklists over a finite graph

A graph lists its nodes with their targets. Both worklists pop a node at a time
and fail at one that the graph does not list; the first pushes every target and
skips the nodes that it has seen, the second pushes the new targets only.
-/

variable {α : Type} [DecidableEq α]

namespace Graph

/-- The targets of a listed node. -/
def targets (graph : List (α × List α)) (node : α) : Option (List α) :=
  (graph.find? fun entry => entry.1 = node).map Prod.snd

def Edge (graph : List (α × List α)) (node target : α) : Prop :=
  ∃ listed, targets graph node = some listed ∧ target ∈ listed

/-- A node is one of the seeds or lies behind one. -/
def Behind (graph : List (α × List α)) (seeds : List α) (node : α) : Prop :=
  ∃ seed ∈ seeds, Relation.ReflTransGen (Edge graph) seed node

section

variable {graph : List (α × List α)} {node target : α} {listed seeds : List α}

theorem targets_listed (found : targets graph node = some listed) :
    ∃ entry ∈ graph, entry.1 = node ∧ entry.2 = listed := by
  obtain ⟨entry, here, rfl⟩ := Option.map_eq_some_iff.mp found
  exact ⟨entry, List.mem_of_find?_eq_some here, by simpa using List.find?_some here, rfl⟩

theorem edge_of_targets (found : targets graph node = some listed) (member : target ∈ listed) :
    Edge graph node target :=
  ⟨listed, found, member⟩

theorem edge_listed (found : targets graph node = some listed) (edge : Edge graph node target) :
    target ∈ listed := by
  obtain ⟨others, known, member⟩ := edge
  cases found.symm.trans known
  exact member

/-- A list that holds the seeds and every target of its members holds all that lies behind them. -/
theorem Behind.inside {closed : List α} (behind : Behind graph seeds node)
    (held : ∀ seed ∈ seeds, seed ∈ closed)
    (step : ∀ member ∈ closed, ∀ target, Edge graph member target → target ∈ closed) :
      node ∈ closed := by
  obtain ⟨seed, given, path⟩ := behind
  induction path with
  | refl => exact held seed given
  | tail _ edge ih => exact step _ ih _ edge

theorem Behind.next (behind : Behind graph seeds node) (edge : Edge graph node target) :
    Behind graph seeds target := by
  obtain ⟨seed, given, path⟩ := behind
  exact ⟨seed, given, path.tail edge⟩

theorem Behind.of_seed (given : node ∈ seeds) : Behind graph seeds node := ⟨node, given, .refl⟩

end

/-- The listed nodes outside of a list. -/
def outside (graph : List (α × List α)) (seen : List α) : List (α × List α) :=
  graph.filter fun entry => entry.1 ∉ seen

theorem outside_cons_lt {listed seen : List α}
    (found : targets graph node = some listed) (fresh : node ∉ seen) :
    (outside graph (node :: seen)).length < (outside graph seen).length := by
  obtain ⟨entry, member, rfl, _⟩ := targets_listed found
  have split : outside graph (entry.1 :: seen) = (outside graph seen).filter fun other =>
      other.1 ≠ entry.1 := by
    simp only [outside, List.filter_filter]
    apply List.filter_congr
    intro other _
    simp only [List.mem_cons, not_or, ne_eq, Bool.decide_and]
  rw [split]
  apply List.length_filter_lt_length_iff_exists.mpr
  exact ⟨entry, by simp [outside, member, fresh], by simp⟩

/-- The nodes that were seen with every node that is reached from the pending ones. -/
def gather (graph : List (α × List α)) (pending seen : List α) : Option (List α) :=
  match pending with
  | [] => some seen
  | node :: rest =>
      if _seen : node ∈ seen then gather graph rest seen
      else
        match _found : targets graph node with
        | none => none
        | some listed => gather graph (listed.reverse ++ rest) (node :: seen)
termination_by ((outside graph seen).length, pending.length)
decreasing_by
  · exact Prod.Lex.right _ (by simp)
  · exact Prod.Lex.left _ _ (outside_cons_lt _found _seen)

theorem gather_nil {graph : List (α × List α)} {seen : List α} :
    gather graph [] seen = some seen := by
  rw [gather]

theorem gather_push {node : α} {listed rest seen : List α} (fresh : node ∉ seen)
    (found : targets graph node = some listed) :
    gather graph (node :: rest) seen = gather graph (listed.reverse ++ rest) (node :: seen) := by
  rw [gather, dif_neg fresh]
  split
  · next missing => cases found.symm.trans missing
  · next others known =>
      cases found.symm.trans known
      rfl

/-- What was gathered has one property when the seeds have it and the edges keep it. -/
theorem gather_sound {graph : List (α × List α)} {pending seen result : List α} {holds : α → Prop}
    (gathered : gather graph pending seen = some result) (before : ∀ node ∈ seen, holds node)
    (waiting : ∀ node ∈ pending, holds node)
    (step : ∀ node target, holds node → Edge graph node target → holds target) :
    ∀ node ∈ result, holds node := by
  fun_induction gather graph pending seen with
  | case1 seen =>
      cases gathered
      exact before
  | case2 seen node rest again ih =>
      exact ih gathered before fun other member => waiting other (List.mem_cons_of_mem _ member)
  | case3 => cases gathered
  | case4 seen node rest fresh listed found ih =>
      have here := waiting node List.mem_cons_self
      apply ih gathered
      · intro other member
        rcases List.mem_cons.mp member with rfl | earlier
        · exact here
        · exact before other earlier
      · intro other member
        rcases List.mem_append.mp member with target | later
        · exact step node other here (edge_of_targets found (List.mem_reverse.mp target))
        · exact waiting other (List.mem_cons_of_mem _ later)

/-- The result holds what was seen or pending and every target of its members. -/
theorem gather_closed {graph : List (α × List α)} {pending seen result : List α}
    (gathered : gather graph pending seen = some result)
    (covered : ∀ node ∈ seen, ∀ target, Edge graph node target → target ∈ seen ∨ target ∈ pending) :
    (∀ node, node ∈ seen ∨ node ∈ pending → node ∈ result) ∧
      ∀ node ∈ result, ∀ target, Edge graph node target → target ∈ result := by
  fun_induction gather graph pending seen with
  | case1 seen =>
      cases gathered
      exact ⟨by simp, fun node member target edge => by simpa using covered node member target edge⟩
  | case2 seen node rest again ih =>
      have narrow : ∀ other, other ∈ seen ∨ other ∈ node :: rest → other ∈ seen ∨ other ∈ rest := by
        rintro other (earlier | waiting)
        · exact .inl earlier
        · rcases List.mem_cons.mp waiting with rfl | later
          · exact .inl again
          · exact .inr later
      obtain ⟨held, closed⟩ := ih gathered fun other member target edge =>
        narrow target (covered other member target edge)
      exact ⟨fun other member => held other (narrow other member), closed⟩
  | case3 => cases gathered
  | case4 seen node rest fresh listed found ih =>
      have widen : ∀ other, other ∈ seen ∨ other ∈ node :: rest → other ∈ node :: seen ∨
          other ∈ listed.reverse ++ rest := by
        rintro other (earlier | waiting)
        · exact .inl (List.mem_cons_of_mem _ earlier)
        · rcases List.mem_cons.mp waiting with rfl | later
          · exact .inl List.mem_cons_self
          · exact .inr (List.mem_append_right _ later)
      obtain ⟨held, closed⟩ := ih gathered fun other member target edge => by
        rcases List.mem_cons.mp member with rfl | earlier
        · exact .inr (List.mem_append_left _ (List.mem_reverse.mpr (edge_listed found edge)))
        · exact widen target (covered other earlier target edge)
      exact ⟨fun other member => held other (widen other member), closed⟩

theorem mem_gather {graph : List (α × List α)} {pending result : List α}
    (gathered : gather graph pending [] = some result)
    (node : α) : node ∈ result ↔ Behind graph pending node := by
  constructor
  · refine fun member => gather_sound gathered ?_ ?_ ?_ node member
    · simp
    · exact fun seed => .of_seed
    · exact fun _ _ behind edge => behind.next edge
  · obtain ⟨held, closed⟩ := gather_closed gathered (by simp)
    exact fun behind => behind.inside (fun seed given => held seed (.inr given)) closed

/-- The new targets are reached and wait. -/
def visit : List α → List α → List α → List α × List α
  | [], reached, pending => (reached, pending)
  | target :: rest, reached, pending =>
      if target ∈ reached then visit rest reached pending
        else visit rest (target :: reached) (target :: pending)

theorem visit_fresh (listed reached pending : List α) : ∃ fresh,
    visit listed reached pending = (fresh ++ reached, fresh ++ pending) ∧ fresh.Nodup ∧
      ∀ target, target ∈ fresh ↔ target ∈ listed ∧ target ∉ reached := by
  induction listed generalizing reached pending with
  | nil => exact ⟨[], rfl, List.nodup_nil, by simp⟩
  | cons first rest ih =>
      by_cases known : first ∈ reached
      · obtain ⟨fresh, same, distinct, mem⟩ := ih reached pending
        refine ⟨fresh, by rw [visit, if_pos known, same], distinct, fun target => ?_⟩
        rw [mem, List.mem_cons]
        constructor
        · exact fun new => ⟨.inr new.1, new.2⟩
        · rintro ⟨rfl | later, new⟩
          · exact absurd known new
          · exact ⟨later, new⟩
      · obtain ⟨fresh, same, distinct, mem⟩ := ih (first :: reached) (first :: pending)
        refine ⟨fresh ++ [first], ?_, ?_, fun target => ?_⟩
        · rw [visit, if_neg known, same, List.append_assoc, List.append_assoc]
          rfl
        · apply List.nodup_append.mpr
          refine ⟨distinct, by simp, ?_⟩
          intro target member other last same
          rw [List.mem_singleton.mp last] at same
          rw [same] at member
          exact ((mem first).mp member).2 List.mem_cons_self
        · simp only [List.mem_append, mem, List.mem_cons, List.not_mem_nil, or_false, not_or]
          by_cases same : target = first
          · simp [same, known]
          · simp [same]

/-- The targets in the graph that a list does not hold. -/
def unreached (graph : List (α × List α)) (reached : List α) : List α :=
  (graph.flatMap Prod.snd).filter (· ∉ reached)

theorem visit_decreases {graph : List (α × List α)} {node : α} {listed reached rest : List α}
    (found : targets graph node = some listed) :
    Prod.Lex (· < ·) (· < ·)
      ((unreached graph (visit listed reached rest).1).length, (visit listed reached rest).2.length)
      ((unreached graph reached).length, (node :: rest).length) := by
  obtain ⟨fresh, same, _, mem⟩ := visit_fresh listed reached rest
  rw [same]
  cases fresh with
  | nil => exact Prod.Lex.right _ (by simp)
  | cons target others =>
      apply Prod.Lex.left
      obtain ⟨entry, member, _, rfl⟩ := targets_listed found
      obtain ⟨here, new⟩ := (mem target).mp List.mem_cons_self
      have split : unreached graph (target :: others ++ reached) =
          (unreached graph reached).filter (· ∉ target :: others) := by
        simp only [unreached, List.filter_filter]
        apply List.filter_congr
        intro other _
        simp only [List.mem_append, not_or, Bool.decide_and]
      rw [split]
      apply List.length_filter_lt_length_iff_exists.mpr
      refine ⟨target, List.mem_filter.mpr ⟨List.mem_flatMap.mpr ⟨entry, member, here⟩,
        by simpa using new⟩, by simp⟩

/-- The reached nodes with every node that is reached from the pending ones. -/
def spread (graph : List (α × List α)) (pending reached : List α) : Option (List α) :=
  match pending with
  | [] => some reached
  | node :: rest =>
      match _found : targets graph node with
      | none => none
      | some listed => spread graph (visit listed reached rest).2 (visit listed reached rest).1
termination_by ((unreached graph reached).length, pending.length)
decreasing_by exact visit_decreases _found

theorem spread_sound {holds : α → Prop}
    (spreads : spread graph pending reached = some result) (before : ∀ node ∈ reached, holds node)
    (waiting : ∀ node ∈ pending, holds node)
    (step : ∀ node target, holds node → Edge graph node target → holds target) :
    ∀ node ∈ result, holds node := by
  fun_induction spread graph pending reached with
  | case1 reached =>
      cases spreads
      exact before
  | case2 => cases spreads
  | case3 reached node rest listed found ih =>
      obtain ⟨fresh, same, _, mem⟩ := visit_fresh listed reached rest
      rw [same] at ih spreads
      have new : ∀ target ∈ fresh, holds target := fun target member =>
        step node target (waiting node List.mem_cons_self)
          (edge_of_targets found ((mem target).mp member).1)
      apply ih spreads
      · exact List.forall_mem_append.mpr ⟨new, before⟩
      · exact List.forall_mem_append.mpr ⟨new, fun other member =>
          waiting other (List.mem_cons_of_mem _ member)⟩

theorem spread_closed {graph : List (α × List α)} {pending reached result : List α}
    (spreads : spread graph pending reached = some result)
    (covered : ∀ node ∈ reached, node ∉ pending → ∀ target, Edge graph node target →
      target ∈ reached) :
    (∀ node ∈ reached, node ∈ result) ∧ ∀ node ∈ result, ∀ target, Edge graph node target →
      target ∈ result := by
  fun_induction spread graph pending reached with
  | case1 reached =>
      cases spreads
      exact ⟨fun _ member => member, fun node member => covered node member (by simp)⟩
  | case2 => cases spreads
  | case3 reached node rest listed found ih =>
      obtain ⟨fresh, same, _, mem⟩ := visit_fresh listed reached rest
      rw [same] at ih spreads
      have ⟨held, closed⟩ := ih spreads fun other member idle target edge => by
        rcases List.mem_append.mp member with new | earlier
        · exact absurd (List.mem_append_left _ new) idle
        · by_cases popped : other = node
          · by_cases known : target ∈ reached
            · exact List.mem_append_right _ known
            · exact List.mem_append_left _
                ((mem target).mpr ⟨edge_listed found (popped ▸ edge), known⟩)
          · apply List.mem_append_right
            apply covered other earlier _ target edge
            intro waiting
            rcases List.mem_cons.mp waiting with equal | later
            · exact popped equal
            · exact idle (List.mem_append_right _ later)
      exact ⟨fun other member => held other (List.mem_append_right _ member), closed⟩

theorem mem_spread {graph : List (α × List α)} {pending seeds result : List α}
    (spreads : spread graph pending seeds = some result)
    (same : ∀ node, node ∈ pending ↔ node ∈ seeds) (node : α) :
    node ∈ result ↔ Behind graph seeds node := by
  constructor
  · refine fun member => spread_sound spreads ?_ ?_ ?_ node member
    · exact fun seed => .of_seed
    · exact fun seed given => .of_seed ((same seed).mp given)
    · exact fun _ _ behind edge => behind.next edge
  · obtain ⟨held, closed⟩ := spread_closed spreads fun node member idle =>
      absurd ((same node).mpr member) idle
    exact fun behind => behind.inside held closed

theorem spread_succeeds {pending reached : List α} {known : α → Prop}
    (waiting : ∀ node ∈ pending, known node)
    (listed : ∀ node, known node → (targets graph node).isSome)
    (step : ∀ node target, known node → Edge graph node target → known target) :
    ∃ result, spread graph pending reached = some result := by
  fun_induction spread graph pending reached with
  | case1 reached => exact ⟨reached, rfl⟩
  | case2 reached node rest missing =>
      have present := listed node (waiting node List.mem_cons_self)
      rw [missing] at present
      cases present
  | case3 reached node rest listed found ih =>
      obtain ⟨fresh, same, _, mem⟩ := visit_fresh listed reached rest
      rw [same] at ih ⊢
      apply ih
      refine List.forall_mem_append.mpr ⟨?_, ?_⟩
      · intro target member
        exact step node target (waiting node List.mem_cons_self)
          (edge_of_targets found ((mem target).mp member).1)
      · exact fun other member => waiting other (List.mem_cons_of_mem _ member)

end Graph

end MarketingAgents.Library
