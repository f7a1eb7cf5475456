import MarketingAgents.Services.RoutingOrder

namespace MarketingAgents

/-! # The cover search is exhaustive

The router keeps, for each set of slots, the selections that no other one
dominates.  What it finally selects is what a search through all selections
would.
-/

namespace RoutingCatalog

variable (catalog : RoutingCatalog) (target : InstanceSnapshot) (slots : List RoutingSlot)

/-- Every slot is covered by the target or by a selected instance. -/
def Covers (selection : List InstanceSnapshot) : Prop :=
  ∀ slot ∈ slots, ∃ item ∈ target :: selection, catalog.covers item slot = true

/-- How a slot ranks the template of an instance that can take it. -/
def slotPriority (item : InstanceSnapshot) (slot : RoutingSlot) : Nat :=
  if catalog.covers item slot then slot.templatePriorities.idxOf item.templateId
    else unassignedPriority

/-- For each slot the best rank among the target and the selected instances. -/
def bestPriorities (selection : List InstanceSnapshot) : List Nat :=
  slots.map fun slot => selection.foldl (fun best item => min best (catalog.slotPriority item slot))
    (catalog.slotPriority target slot)

/-- Covers of one size are compared by their best ranks, then by their order. -/
def coverKey (selection : List InstanceSnapshot) : List Nat ×ₗ List InstanceOrder :=
  toLex (catalog.bestPriorities target slots selection, selectionOrder selection)

/-- Among all covers that are taken from the candidates, none has fewer members,
and none of the same size comes before. -/
structure LeastCover (candidates selection : List InstanceSnapshot) : Prop where
  taken : selection.Sublist candidates
  covers : catalog.Covers target slots selection
  least : ∀ other, other.Sublist candidates → catalog.Covers target slots other →
    selection.length ≤ other.length
  first : ∀ other, other.Sublist candidates → catalog.Covers target slots other →
    other.length = selection.length → catalog.coverKey target slots selection ≤
      catalog.coverKey target slots other

/-- The instances that a request may add to its target. -/
def additionalCandidates : List InstanceSnapshot :=
  catalog.orderedInstances.filter fun snapshot =>
    snapshot.id ≠ target.id && snapshot.enabled && catalog.coverageMask snapshot slots ≠ 0

theorem testBit_mask_fold (item : InstanceSnapshot) (numbered : List (RoutingSlot × Nat))
    (mask index : Nat) :
    (numbered.foldl (fun mask slot => if catalog.covers item slot.1 then mask ||| 1 <<< slot.2
      else mask) mask).testBit index = true ↔
      mask.testBit index = true ∨ ∃ slot ∈ numbered, slot.2 = index ∧
        catalog.covers item slot.1 = true := by
  induction numbered generalizing mask with
  | nil => simp
  | cons slot rest ih =>
      rw [List.foldl_cons, ih]
      by_cases covered : catalog.covers item slot.1 = true
      · rw [if_pos covered, Nat.testBit_or, Nat.one_shiftLeft, Nat.testBit_two_pow, Bool.or_eq_true,
          decide_eq_true_eq, or_assoc]
        simp [covered]
      · simp [covered]

theorem testBit_coverageMask (item : InstanceSnapshot) (index : Nat) :
    (catalog.coverageMask item slots).testBit index = true ↔
      ∃ slot, slots[index]? = some slot ∧ catalog.covers item slot = true := by
  rw [coverageMask, testBit_mask_fold]
  constructor
  · intro covered
    rcases covered with impossible | covered
    · simp at impossible
    · obtain ⟨⟨slot, position⟩, listed, same, covered⟩ := covered
      cases same
      exact ⟨slot, List.mk_mem_zipIdx_iff_getElem?.mp listed, covered⟩
  · intro covered
    obtain ⟨slot, listed, covered⟩ := covered
    exact .inr ⟨(slot, index), List.mk_mem_zipIdx_iff_getElem?.mpr listed, rfl, covered⟩

/-- The mask of a selection beside its target. -/
def selectionMask (selection : List InstanceSnapshot) : Nat :=
  selection.foldl (fun mask item => mask ||| catalog.coverageMask item slots)
    (catalog.coverageMask target slots)

theorem selectionMask_concat (selection : List InstanceSnapshot) (item : InstanceSnapshot) :
    catalog.selectionMask target slots (selection ++ [item]) =
      catalog.selectionMask target slots selection ||| catalog.coverageMask item slots := by
  rw [selectionMask, List.foldl_append]
  rfl

theorem testBit_selectionMask (selection : List InstanceSnapshot) (index : Nat) :
    (catalog.selectionMask target slots selection).testBit index = true ↔
      ∃ item ∈ target :: selection, (catalog.coverageMask item slots).testBit index = true := by
  induction selection using List.reverseRecOn with
  | nil => simp [selectionMask]
  | append_singleton front item ih =>
      rw [selectionMask_concat, Nat.testBit_or, Bool.or_eq_true, ih]
      simp only [List.mem_cons, List.mem_append, List.not_mem_nil, or_false]
      constructor
      · intro covered
        rcases covered with ⟨other, member, bit⟩ | bit
        · exact ⟨other, member.imp_right .inl, bit⟩
        · exact ⟨item, .inr (.inr rfl), bit⟩
      · intro covered
        obtain ⟨other, first | old | same, bit⟩ := covered
        · exact .inl ⟨other, .inl first, bit⟩
        · exact .inl ⟨other, .inr old, bit⟩
        · exact .inr (same ▸ bit)

theorem selectionMask_full (selection : List InstanceSnapshot) :
    catalog.selectionMask target slots selection = 1 <<< slots.length - 1 ↔
      catalog.Covers target slots selection := by
  rw [Nat.one_shiftLeft]
  constructor
  · intro full slot listed
    obtain ⟨index, bound, found⟩ := List.mem_iff_getElem.mp listed
    have bit : (catalog.selectionMask target slots selection).testBit index = true := by
      rw [full, Nat.testBit_two_pow_sub_one, decide_eq_true_eq]
      exact bound
    obtain ⟨item, member, bit⟩ :=
      (catalog.testBit_selectionMask target slots selection index).mp bit
    obtain ⟨other, same, covered⟩ := (catalog.testBit_coverageMask slots item index).mp bit
    rw [List.getElem?_eq_getElem bound, found] at same
    cases same
    exact ⟨item, member, covered⟩
  · intro covers
    apply Nat.eq_of_testBit_eq
    intro index
    rw [Nat.testBit_two_pow_sub_one, Bool.eq_iff_iff, testBit_selectionMask, decide_eq_true_eq]
    constructor
    · intro covered
      obtain ⟨item, _, bit⟩ := covered
      obtain ⟨slot, found, _⟩ := (catalog.testBit_coverageMask slots item index).mp bit
      exact (List.getElem?_eq_some_iff.mp found).1
    · intro bound
      obtain ⟨item, member, covered⟩ := covers slots[index] (List.getElem_mem bound)
      exact ⟨item, member, (catalog.testBit_coverageMask slots item index).mpr
        ⟨slots[index], List.getElem?_eq_getElem bound, covered⟩⟩

theorem priorityVector_eq (item : InstanceSnapshot) :
    catalog.priorityVector item slots = slots.map (catalog.slotPriority item) := by
  apply List.map_congr_left
  intro slot _
  have single : catalog.coverageMask item [slot] = 1 ↔ catalog.covers item slot = true := by
    by_cases covered : catalog.covers item slot = true <;> simp [coverageMask, covered]
  simp only [slotPriority, single]

theorem bestPriorities_nil : catalog.bestPriorities target slots [] =
    catalog.priorityVector target slots := by
  rw [priorityVector_eq]
  rfl

theorem bestPriorities_concat (selection : List InstanceSnapshot) (item : InstanceSnapshot) :
    catalog.bestPriorities target slots (selection ++ [item]) =
      (catalog.bestPriorities target slots selection).zipWith min
        (catalog.priorityVector item slots) := by
  rw [priorityVector_eq, bestPriorities, bestPriorities, List.zipWith_map, List.zipWith_self]
  apply List.map_congr_left
  intro slot _
  rw [List.foldl_append]
  rfl

section

variable {α : Type} [LinearOrder α]

theorem cons_le_cons_iff {first other : α} {rest others : List α} :
    first :: rest ≤ other :: others ↔ first < other ∨ first = other ∧ rest ≤ others := by
  rw [le_iff_lt_or_eq, le_iff_lt_or_eq, List.cons_lt_cons_iff, List.cons.injEq,
    and_or_left, or_assoc]

theorem append_le_append {left right : List α} (same : left.length = right.length)
    (before : left ≤ right) (last : α) : left ++ [last] ≤ right ++ [last] := by
  induction left generalizing right with
  | nil =>
      cases List.length_eq_zero_iff.mp same.symm
      exact le_rfl
  | cons first rest ih =>
      cases right with
      | nil => cases same
      | cons other others =>
          rw [List.cons_append, List.cons_append, cons_le_cons_iff]
          rcases cons_le_cons_iff.mp before with smaller | ⟨equal, later⟩
          · exact .inl smaller
          · exact .inr ⟨equal, ih (Nat.succ.inj same) later⟩

theorem le_of_forall₂ {left right : List α} (nowhere : List.Forall₂ (· ≤ ·) left right) :
    left ≤ right := by
  induction nowhere with
  | nil => exact le_rfl
  | cons first _ ih =>
      rw [cons_le_cons_iff]
      rcases lt_or_eq_of_le first with smaller | equal
      · exact .inl smaller
      · exact .inr ⟨equal, ih⟩

theorem forall₂_le_trans {left middle right : List α} (first : List.Forall₂ (· ≤ ·) left middle)
    (second : List.Forall₂ (· ≤ ·) middle right) : List.Forall₂ (· ≤ ·) left right := by
  induction first generalizing right with
  | nil => exact second
  | cons head _ ih =>
      cases second with
      | cons other rest => exact .cons (head.trans other) (ih rest)

theorem forall₂_zipWith_min (nowhere : List.Forall₂ (· ≤ ·) left right) (vector : List α) :
    List.Forall₂ (· ≤ ·) (left.zipWith min vector) (right.zipWith min vector) := by
  induction nowhere generalizing vector with
  | nil => exact .nil
  | cons first rest ih =>
      cases vector with
      | nil => exact .nil
      | cons rank others => exact .cons (min_le_min_right rank first) (ih others)

end

/-- Whatever is added behind both selections, the left one is as good as the right one. -/
def Leads (left right : List InstanceSnapshot) : Prop :=
  left.length < right.length ∨
    left.length = right.length ∧
      List.Forall₂ (· ≤ ·) (catalog.bestPriorities target slots left)
        (catalog.bestPriorities target slots right) ∧
      selectionOrder left ≤ selectionOrder right

section

variable {catalog target slots} {left middle right : List InstanceSnapshot}

theorem Leads.refl (selection : List InstanceSnapshot) :
    catalog.Leads target slots selection selection :=
  .inr ⟨rfl, List.forall₂_refl _, le_rfl⟩

theorem Leads.trans (first : catalog.Leads target slots left middle)
    (second : catalog.Leads target slots middle right) :
    catalog.Leads target slots left right := by
  rcases first with shorter | ⟨same, ranks, order⟩
  · rcases second with others | ⟨others, _⟩
    · exact .inl (Nat.lt_trans shorter others)
    · exact .inl (others ▸ shorter)
  · rcases second with shorter | ⟨others, otherRanks, otherOrder⟩
    · exact .inl (same ▸ shorter)
    · exact .inr ⟨same.trans others, forall₂_le_trans ranks otherRanks, order.trans otherOrder⟩

theorem Leads.length_le (leads : catalog.Leads target slots left right) :
    left.length ≤ right.length := by
  rcases leads with shorter | ⟨same, _⟩
  · exact Nat.le_of_lt shorter
  · exact Nat.le_of_eq same

theorem Leads.concat (leads : catalog.Leads target slots left right) (item : InstanceSnapshot) :
    catalog.Leads target slots (left ++ [item]) (right ++ [item]) := by
  rcases leads with shorter | ⟨same, ranks, order⟩
  · left
    simpa using shorter
  · right
    refine ⟨by simpa using same, ?_, ?_⟩
    · rw [bestPriorities_concat, bestPriorities_concat]
      exact forall₂_zipWith_min ranks _
    · have lengths : (selectionOrder left).length = (selectionOrder right).length := by
        simpa [selectionOrder] using same
      simpa [selectionOrder] using append_le_append lengths order item.order

theorem Leads.key_le (leads : catalog.Leads target slots left right)
    (same : right.length = left.length) :
    catalog.coverKey target slots left ≤ catalog.coverKey target slots right := by
  rcases leads with shorter | ⟨_, ranks, order⟩
  · exact absurd same (Nat.ne_of_gt shorter)
  · rw [coverKey, coverKey, Prod.Lex.toLex_le_toLex]
    rcases lt_or_eq_of_le (le_of_forall₂ ranks) with better | equal
    · exact .inl better
    · exact .inr ⟨equal, order⟩

end

/-- Each member covers a slot that nothing before it covers. -/
def Counts (selection : List InstanceSnapshot) : Prop :=
  ∀ front item back, selection = front ++ item :: back →
    catalog.selectionMask target slots front ||| catalog.coverageMask item slots ≠
      catalog.selectionMask target slots front

section

variable {catalog target slots} {selection : List InstanceSnapshot}

theorem counts_concat {item : InstanceSnapshot} :
    catalog.Counts target slots (selection ++ [item]) ↔
    catalog.Counts target slots selection ∧
      catalog.selectionMask target slots selection ||| catalog.coverageMask item slots ≠
        catalog.selectionMask target slots selection := by
  constructor
  · intro counts
    refine ⟨fun front other back split => counts front other (back ++ [item]) ?_,
      counts selection item [] rfl⟩
    rw [split, List.append_assoc, List.cons_append]
  · intro counts front other back split
    obtain ⟨counts, last⟩ := counts
    cases back using List.reverseRecOn with
    | nil =>
        obtain ⟨rfl, same⟩ := List.append_inj' split rfl
        cases same
        exact last
    | append_singleton back final =>
        rw [← List.cons_append, ← List.append_assoc] at split
        obtain ⟨rfl, _⟩ := List.append_inj' split rfl
        exact counts front other back rfl

variable (catalog target slots) in
theorem exists_counting (selection : List InstanceSnapshot) : ∃ thinned, thinned.Sublist selection ∧
    catalog.Counts target slots thinned ∧
      catalog.selectionMask target slots thinned =
        catalog.selectionMask target slots selection := by
  induction selection using List.reverseRecOn with
  | nil =>
      refine ⟨[], .refl _, fun front item back split => ?_, rfl⟩
      simp at split
  | append_singleton front item ih =>
      obtain ⟨thinned, taken, counts, same⟩ := ih
      by_cases idle : catalog.selectionMask target slots
        thinned ||| catalog.coverageMask item slots =
          catalog.selectionMask target slots thinned
      · refine ⟨thinned, taken.trans (List.sublist_append_left _ _), counts, ?_⟩
        rw [selectionMask_concat, ← same, idle]
      · refine ⟨thinned ++ [item], taken.append_right [item], counts_concat.mpr ⟨counts, idle⟩, ?_⟩
        rw [selectionMask_concat, selectionMask_concat, same]

end

/-- A state holds a selection of the candidates so far, with its ranks, under its mask. -/
structure StateOf (seen : List InstanceSnapshot) (mask : Nat) (state : CoverState) : Prop where
  taken : state.selection.Sublist seen
  mask : catalog.selectionMask target slots state.selection = mask
  priorities : state.assignmentPriorities = catalog.bestPriorities target slots state.selection

/-- Every entry holds states of its mask, all of one size. -/
def Sound (seen : List InstanceSnapshot) (states : List (Nat × List CoverState)) : Prop :=
  ∀ entry ∈ states, ∃ count, entry.2 ≠ [] ∧ ∀ state ∈ entry.2,
    catalog.StateOf target slots seen entry.1 state ∧ state.selection.length = count

/-- Under a mask some state is kept that leads a selection. -/
def Holds (states : List (Nat × List CoverState)) (mask : Nat)
    (selection : List InstanceSnapshot) : Prop :=
  ∃ kept, states.lookup mask = some kept ∧ ∃ state ∈ kept,
    catalog.Leads target slots state.selection selection

/-- What was sound stays so, and what was led stays led. -/
def Grows (seen : List InstanceSnapshot) (states next : List (Nat × List CoverState)) : Prop :=
  catalog.Sound target slots seen states → catalog.Sound target slots seen next ∧
    ∀ mask selection, catalog.Holds target slots states mask selection →
      catalog.Holds target slots next mask selection

section

variable {catalog target slots} {seen : List InstanceSnapshot}
  {states next last : List (Nat × List CoverState)}
variable {mask other : Nat} {kept : List CoverState} {state proposed : CoverState}

theorem mem_of_lookup (found : states.lookup mask = some kept) : (mask, kept) ∈ states := by
  induction states with
  | nil => cases found
  | cons entry rest ih =>
      rw [List.lookup_cons] at found
      split at found
      · rename_i same
        cases found
        cases eq_of_beq same
        exact List.mem_cons_self
      · exact List.mem_cons_of_mem _ (ih found)

/-- An entry that is replaced keeps its place. -/
theorem lookup_store (present : (states.lookup mask).isSome = true) :
    (states.map fun entry => if entry.1 = mask then (mask, kept) else entry).lookup other =
      if other = mask then some kept else states.lookup other := by
  induction states with
  | nil => cases present
  | cons entry rest ih =>
      obtain ⟨name, current⟩ := entry
      rw [List.lookup_cons] at present
      rw [List.map_cons]
      by_cases own : name = mask
      · subst own
        rw [if_pos rfl, List.lookup_cons, List.lookup_cons]
        by_cases same : other = name
        · simp [same]
        · have differs : (other == name) = false := beq_eq_false_iff_ne.mpr same
          simp only [differs, if_neg same]
          cases behind : rest.lookup name with
          | some found => rw [ih (by rw [behind]; rfl), if_neg same]
          | none =>
              -- No later entry has the mask, so none is changed.
              have unchanged : rest.map (fun entry => if entry.1 = name then (name, kept)
                  else entry) = rest := by
                refine (List.map_congr_left fun entry listed => ?_).trans (List.map_id _)
                have differs : entry.1 ≠ name := by
                  intro same
                  have absent := List.lookup_eq_none_iff.mp behind entry listed
                  simp [same] at absent
                rw [if_neg differs]
                rfl
              rw [unchanged]
      · have differs : (mask == name) = false := beq_eq_false_iff_ne.mpr (Ne.symm own)
        rw [differs] at present
        rw [if_neg own, List.lookup_cons, List.lookup_cons, ih present]
        by_cases same : other = name
        · have apart : other ≠ mask := fun equal => own (same.symm.trans equal)
          simp [same, own]
        · have unequal : (other == name) = false := beq_eq_false_iff_ne.mpr same
          rw [unequal]

theorem Grows.refl : catalog.Grows target slots seen states states :=
  fun sound => ⟨sound, fun _ _ holds => holds⟩

theorem Grows.trans (first : catalog.Grows target slots seen states next)
    (second : catalog.Grows target slots seen next last) :
      catalog.Grows target slots seen states last := by
  intro sound
  obtain ⟨sound, kept⟩ := first sound
  obtain ⟨sound, later⟩ := second sound
  exact ⟨sound, fun mask selection holds => later mask selection (kept mask selection holds)⟩

theorem Grows.foldl {β : Type}
    {step : List (Nat × List CoverState) → β → List (Nat × List CoverState)} {items : List β}
    (each : ∀ states, ∀ item ∈ items, catalog.Grows target slots seen states (step states item)) :
    catalog.Grows target slots seen states (items.foldl step states) := by
  induction items generalizing states with
  | nil => exact .refl
  | cons item rest ih =>
      have first := each states item List.mem_cons_self
      exact first.trans (ih fun states other listed =>
        each states other (List.mem_cons_of_mem _ listed))

theorem Grows.foldl_mem {β : Type}
    {step : List (Nat × List CoverState) → β → List (Nat × List CoverState)}
    {items : List β} {item : β}
    (each : ∀ states, ∀ item ∈ items, catalog.Grows target slots seen states (step states item))
    (listed : item ∈ items) (adds : ∀ states, catalog.Sound target slots seen states →
      catalog.Holds target slots (step states item) mask selection)
    (sound : catalog.Sound target slots seen states) :
    catalog.Holds target slots (items.foldl step states) mask selection := by
  obtain ⟨front, back, split⟩ := List.append_of_mem listed
  subst split
  rw [List.foldl_append, List.foldl_cons]
  have before : catalog.Grows target slots seen states (front.foldl step states) :=
    .foldl fun states other member => each states other (List.mem_append_left _ member)
  have own := each (front.foldl step states) item (List.mem_append_right _ List.mem_cons_self)
  have after : catalog.Grows target slots seen (step (front.foldl step states) item)
      (back.foldl step (step (front.foldl step states) item)) :=
    .foldl fun states other member => each states other
      (List.mem_append_right _ (List.mem_cons_of_mem _ member))
  obtain ⟨sound, _⟩ := before sound
  exact (after (own sound).1).2 mask selection (adds _ sound)

theorem StateOf.length (own : catalog.StateOf target slots seen mask state) :
    state.assignmentPriorities.length = slots.length := by
  rw [own.priorities, bestPriorities, List.length_map]

theorem all_zip_le {left right : List Nat} (same : left.length = right.length)
    (all : ((left.zip right).all fun pair => pair.1 ≤ pair.2) = true) :
      List.Forall₂ (· ≤ ·) left right := by
  rw [List.forall₂_iff_zip]
  refine ⟨same, fun listed => ?_⟩
  have checked := List.all_eq_true.mp all _ listed
  exact of_decide_eq_true checked

theorem StateOf.leads (own : catalog.StateOf target slots seen mask first)
    (same : catalog.StateOf target slots seen other second)
    (size : first.selection.length = second.selection.length)
    (dominates : first.dominates second = true) :
    catalog.Leads target slots first.selection second.selection := by
  rw [CoverState.dominates, Bool.and_eq_true, decide_eq_true_eq] at dominates
  have ranks := all_zip_le (own.length.trans same.length.symm) dominates.1
  rw [own.priorities, same.priorities] at ranks
  exact .inr ⟨size, ranks, dominates.2⟩

theorem grows_store (found : states.lookup mask = some current)
    (fresh : ∃ count, kept ≠ [] ∧ ∀ state ∈ kept,
      catalog.StateOf target slots seen mask state ∧ state.selection.length = count)
    (leads : ∀ state ∈ current, ∃ better ∈ kept,
      catalog.Leads target slots better.selection state.selection) :
    catalog.Sound target slots seen states →
      catalog.Sound target slots seen (states.map fun entry =>
        if entry.1 = mask then (mask, kept) else entry) ∧
      ∀ number selection, catalog.Holds target slots states number selection →
        catalog.Holds target slots (states.map fun entry => if entry.1 = mask then (mask, kept)
          else entry) number
          selection := by
  intro sound
  constructor
  · intro entry listed
    obtain ⟨old, member, same⟩ := List.mem_map.mp listed
    split at same
    · subst same
      exact fresh
    · subst same
      exact sound old member
  · intro number selection holds
    obtain ⟨before, present, state, member, led⟩ := holds
    rw [Holds, lookup_store (by rw [found]; rfl)]
    by_cases same : number = mask
    · subst same
      cases found.symm.trans present
      obtain ⟨better, listed, ahead⟩ := leads state member
      exact ⟨kept, if_pos rfl, better, listed, ahead.trans led⟩
    · exact ⟨before, by rw [if_neg same, present], state, member, led⟩

/-- A proposed state is kept unless a kept one leads it, and then it leads what it replaces. -/
theorem retainExactState_keeps (own : catalog.StateOf target slots seen mask proposed)
    (sound : catalog.Sound target slots seen states) :
    (catalog.Sound target slots seen (retainExactState states mask proposed) ∧
      ∀ number selection, catalog.Holds target slots states number selection →
        catalog.Holds target slots (retainExactState states mask proposed) number selection) ∧
      catalog.Holds target slots (retainExactState states mask proposed) mask
        proposed.selection := by
  have alone : ∃ count, [proposed] ≠ [] ∧ ∀ state ∈ [proposed],
      catalog.StateOf target slots seen mask state ∧ state.selection.length = count := by
    refine ⟨proposed.selection.length, List.cons_ne_nil _ _, fun state member => ?_⟩
    rw [List.mem_singleton.mp member]
    exact ⟨own, rfl⟩
  unfold retainExactState
  cases found : states.lookup mask with
  | none =>
      dsimp only
      refine ⟨⟨?_, ?_⟩, ?_⟩
      · intro entry listed
        rcases List.mem_append.mp listed with old | new
        · exact sound entry old
        · rw [List.mem_singleton.mp new]
          exact alone
      · intro number selection holds
        obtain ⟨kept, present, state, member, led⟩ := holds
        refine ⟨kept, ?_, state, member, led⟩
        rw [List.lookup_append, present]
        rfl
      · refine ⟨[proposed], ?_, proposed, List.mem_singleton_self _, .refl _⟩
        rw [List.lookup_append, found]
        simp
  | some current =>
      obtain ⟨count, nonempty, each⟩ := sound _ (mem_of_lookup found)
      have minimum : (current.head?.map (·.selection.length)).getD 0 = count := by
        cases current with
        | nil => exact absurd rfl nonempty
        | cons first rest => exact (each first List.mem_cons_self).2
      have stored (kept : List CoverState) : (states.map fun entry =>
          if entry.1 = mask then (mask, kept) else entry).lookup mask = some kept := by
        rw [lookup_store (by rw [found]; rfl), if_pos rfl]
      dsimp only
      rw [minimum]
      by_cases longer : count < proposed.selection.length
      · rw [if_pos longer]
        obtain ⟨first, member⟩ := List.exists_mem_of_ne_nil _ nonempty
        exact ⟨⟨sound, fun _ _ holds => holds⟩, current, found, first, member,
          .inl ((each first member).2 ▸ longer)⟩
      · rw [if_neg longer]
        by_cases shorter : proposed.selection.length < count
        · rw [if_pos shorter]
          refine ⟨grows_store found alone (fun state member => ?_) sound, [proposed],
            stored _, proposed, List.mem_singleton_self _, .refl _⟩
          exact ⟨proposed, List.mem_singleton_self _, .inl ((each state member).2 ▸ shorter)⟩
        · rw [if_neg shorter]
          have size : proposed.selection.length = count := by omega
          by_cases dominated : current.any (·.dominates proposed) = true
          · rw [if_pos dominated]
            obtain ⟨state, member, dominates⟩ := List.any_eq_true.mp dominated
            obtain ⟨held, length⟩ := each state member
            exact ⟨⟨sound, fun _ _ holds => holds⟩, current, found, state, member,
              held.leads own (length.trans size.symm) dominates⟩
          · rw [if_neg dominated]
            have listed : proposed ∈ (current.filter fun item => !proposed.dominates item) ++
              [proposed] :=
              List.mem_append_right _ (List.mem_singleton_self _)
            refine ⟨grows_store found ⟨count,
              List.append_ne_nil_of_right_ne_nil _ (List.cons_ne_nil _ _), ?_⟩
              (fun state member => ?_) sound, _, stored _, proposed, listed, .refl _⟩
            · intro state member
              rcases List.mem_append.mp member with old | new
              · exact each state (List.mem_filter.mp old).1
              · rw [List.mem_singleton.mp new]
                exact ⟨own, size⟩
            · obtain ⟨held, length⟩ := each state member
              by_cases loses : proposed.dominates state = true
              · exact ⟨proposed, listed, own.leads held (size.trans length.symm) loses⟩
              · refine ⟨state, List.mem_append_left _ (List.mem_filter.mpr ⟨member, ?_⟩), .refl _⟩
                simpa using loses

end

/-- The states are sound, and every selection in which each member counts is led. -/
structure Explored (seen : List InstanceSnapshot)
    (states : List (Nat × List CoverState)) : Prop where
  sound : catalog.Sound target slots seen states
  complete : ∀ selection, selection.Sublist seen → catalog.Counts target slots selection →
    catalog.Holds target slots states (catalog.selectionMask target slots selection) selection

section

variable {catalog target slots} {seen : List InstanceSnapshot}
  {states : List (Nat × List CoverState)}

theorem StateOf.mono {mask : Nat}
    (own : catalog.StateOf target slots seen mask state) (later : seen.Sublist more) :
    catalog.StateOf target slots more mask state :=
  ⟨own.taken.trans later, own.mask, own.priorities⟩

/-- The state with one more candidate. -/
def CoverState.extended (catalog : RoutingCatalog) (slots : List RoutingSlot) (state : CoverState)
    (candidate : InstanceSnapshot) : CoverState where
  selection := state.selection ++ [candidate]
  assignmentPriorities := state.assignmentPriorities.zipWith min
    (catalog.priorityVector candidate slots)

theorem StateOf.extended {mask : Nat} (own : catalog.StateOf target slots seen mask state)
    (candidate : InstanceSnapshot) :
    catalog.StateOf target slots (seen ++ [candidate])
      (mask ||| catalog.coverageMask candidate slots)
      (CoverState.extended catalog slots state candidate) where
  taken := own.taken.append_right [candidate]
  mask := by rw [CoverState.extended, selectionMask_concat, own.mask]
  priorities := by rw [CoverState.extended, bestPriorities_concat, own.priorities]

theorem explored_start : catalog.Explored target slots []
    [(catalog.coverageMask target slots, [⟨[], catalog.priorityVector target slots⟩])] where
  sound := by
    intro entry listed
    rw [List.mem_singleton.mp listed]
    refine ⟨0, List.cons_ne_nil _ _, fun state member => ?_⟩
    rw [List.mem_singleton.mp member]
    exact ⟨⟨.refl _, rfl, (catalog.bestPriorities_nil target slots).symm⟩, rfl⟩
  complete := by
    intro selection taken _
    rw [List.sublist_nil.mp taken]
    exact ⟨_, by rw [selectionMask, List.foldl_nil, List.lookup_cons_self], _,
      List.mem_singleton_self _, .refl _⟩

theorem Sound.mono (sound : catalog.Sound target slots seen states)
    (later : seen.Sublist more) : catalog.Sound target slots more states := by
  intro entry listed
  obtain ⟨count, nonempty, each⟩ := sound entry listed
  exact ⟨count, nonempty, fun state member =>
    ⟨(each state member).1.mono later, (each state member).2⟩⟩

/-- One candidate is tried with every state that was known before it. -/
theorem Explored.extend (explored : catalog.Explored target slots seen states)
    (candidate : InstanceSnapshot) :
    catalog.Explored target slots (seen ++ [candidate])
      (catalog.extendStates slots states candidate) := by
  have grown := explored.sound.mono (List.sublist_append_left seen [candidate])
  -- Every state under a mask that the candidate adds to is proposed with it.
  have retained (entry : Nat × List CoverState) (listed : entry ∈ states) (state : CoverState)
    (member : state ∈ entry.2) :
      catalog.StateOf target slots (seen ++ [candidate])
        (entry.1 ||| catalog.coverageMask candidate slots)
        (CoverState.extended catalog slots state candidate) := by
    obtain ⟨_, _, each⟩ := explored.sound entry listed
    exact (each state member).1.extended candidate
  have inner (entry : Nat × List CoverState) (listed : entry ∈ states) :
    ∀ current, ∀ state ∈ entry.2,
      catalog.Grows target slots (seen ++ [candidate]) current
        (retainExactState current (entry.1 ||| catalog.coverageMask candidate slots)
          (CoverState.extended catalog slots state candidate)) :=
    fun current state member sound =>
      (retainExactState_keeps (retained entry listed state member) sound).1
  have outer : ∀ current, ∀ entry ∈ states, catalog.Grows target slots (seen ++ [candidate]) current
      (if entry.1 ||| catalog.coverageMask candidate slots = entry.1 then current
        else entry.2.foldl (fun current state => retainExactState current
          (entry.1 ||| catalog.coverageMask candidate slots)
            (CoverState.extended catalog slots state candidate))
          current) := by
    intro current entry listed
    split
    · exact .refl
    · exact .foldl (inner entry listed)
  have grows : catalog.Grows target slots (seen ++ [candidate]) states
    (catalog.extendStates slots states candidate) :=
    .foldl outer
  refine ⟨(grows grown).1, fun selection taken counts => ?_⟩
  obtain ⟨front, back, split, inSeen, single⟩ := List.sublist_append_iff.mp taken
  rcases List.sublist_singleton.mp single with none | one
  · subst none
    rw [List.append_nil] at split
    subst split
    exact (grows grown).2 _ _ (explored.complete selection inSeen counts)
  · subst one split
    obtain ⟨counts, adds⟩ := counts_concat.mp counts
    obtain ⟨kept, found, state, member, led⟩ := explored.complete front inSeen counts
    have listed := mem_of_lookup found
    rw [selectionMask_concat]
    refine Grows.foldl_mem outer listed (fun current sound => ?_) grown
    rw [if_neg adds]
    refine Grows.foldl_mem (inner _ listed) member (fun current sound => ?_) sound
    have holds := (retainExactState_keeps (retained _ listed state member) sound).2
    obtain ⟨kept, found, better, stored, ahead⟩ := holds
    exact ⟨kept, found, better, stored, ahead.trans (led.concat candidate)⟩

theorem Explored.run (explored : catalog.Explored target slots seen states)
    (candidates : List InstanceSnapshot) :
    catalog.Explored target slots (seen ++ candidates)
      (candidates.foldl (catalog.extendStates slots) states) := by
  induction candidates generalizing seen states with
  | nil =>
      rw [List.append_nil]
      exact explored
  | cons candidate rest ih =>
      have next := ih (explored.extend candidate)
      rw [List.append_assoc, List.singleton_append] at next
      exact next

end

end RoutingCatalog

section

variable {α κ : Type} [LinearOrder κ] (key : α → κ)

theorem minBy_fold (items : List α) (first : α) :
    let least := items.foldl (fun best next => if key next < key best then next else best) first
    least ∈ first :: items ∧ ∀ item ∈ first :: items, key least ≤ key item := by
  induction items generalizing first with
  | nil => simp
  | cons next rest ih =>
      obtain ⟨listed, least⟩ := ih (if key next < key first then next else first)
      rw [List.foldl_cons]
      by_cases smaller : key next < key first
      · rw [if_pos smaller] at listed least ⊢
        refine ⟨List.mem_cons_of_mem _ listed, fun item member => ?_⟩
        rcases List.mem_cons.mp member with same | later
        · exact same ▸ (least next List.mem_cons_self).trans smaller.le
        · exact least item later
      · rw [if_neg smaller] at listed least ⊢
        constructor
        · rcases List.mem_cons.mp listed with same | later
          · rw [same]
            exact List.mem_cons_self
          · exact List.mem_cons_of_mem _ (List.mem_cons_of_mem _ later)
        · intro item member
          rcases List.mem_cons.mp member with same | later
          · exact same ▸ least first List.mem_cons_self
          · rcases List.mem_cons.mp later with same | behind
            · exact same ▸ (least first List.mem_cons_self).trans (not_lt.mp smaller)
            · exact least item (List.mem_cons_of_mem _ behind)

theorem minBy_least {items : List α} (nonempty : items ≠ []) :
    ∃ least ∈ items, minBy key items = some least ∧ ∀ item ∈ items, key least ≤ key item := by
  cases items with
  | nil => exact absurd rfl nonempty
  | cons first rest =>
      obtain ⟨listed, least⟩ := minBy_fold key rest first
      exact ⟨_, listed, rfl, least⟩

end

namespace RoutingCatalog

/-- The answer where no selection covers the slots. -/
def missingCover : Rejection where
  code := "missing_capability"
  message := "enabled eligible instances cannot cover every required routing slot"

section

variable {catalog : RoutingCatalog} {target : InstanceSnapshot} {slots : List RoutingSlot}
variable {candidates selection other : List InstanceSnapshot}

theorem selectionOrder_injective
    (ordered : candidates.Pairwise fun left right => left.order < right.order)
    (first : selection.Sublist candidates) (second : other.Sublist candidates)
    (same : selectionOrder selection = selectionOrder other) : selection = other := by
  have distinct : (candidates.map (·.order)).Nodup := List.pairwise_map.mpr (ordered.imp ne_of_lt)
  induction selection generalizing other with
  | nil =>
      cases other with
      | nil => rfl
      | cons item rest => cases same
  | cons item rest ih =>
      cases other with
      | nil => cases same
      | cons next others =>
          obtain ⟨head, tail⟩ := List.cons.inj same
          rw [List.inj_on_of_nodup_map distinct (first.subset List.mem_cons_self)
            (second.subset List.mem_cons_self) head,
              ih ((List.sublist_cons_self _ _).trans first)
                ((List.sublist_cons_self _ _).trans second) tail]

theorem LeastCover.unique (ordered : candidates.Pairwise fun left right => left.order < right.order)
    (first : catalog.LeastCover target slots candidates selection)
    (second : catalog.LeastCover target slots candidates other) : selection = other := by
  have size := Nat.le_antisymm (first.least other second.taken second.covers)
    (second.least selection first.taken first.covers)
  have key := le_antisymm (first.first other second.taken second.covers size.symm)
    (second.first selection first.taken first.covers size)
  have orders := (Prod.mk.inj (toLex.injective key)).2
  exact selectionOrder_injective ordered first.taken second.taken orders

variable (catalog target slots) in
/-- The search finds the least cover, or there is no cover. -/
theorem minimumCover_cases
    (ordered : candidates.Pairwise fun left right => left.order < right.order) :
    (∃ selection, catalog.minimumCover target (catalog.coverageMask target slots)
      (1 <<< slots.length - 1) candidates
        slots = .ok selection ∧ catalog.LeastCover target slots candidates selection) ∨
      catalog.minimumCover target (catalog.coverageMask target slots)
        (1 <<< slots.length - 1) candidates slots =
        .error missingCover ∧ ∀ chosen, chosen.Sublist candidates →
          ¬ catalog.Covers target slots chosen := by
  unfold minimumCover
  by_cases alone : catalog.coverageMask target slots = 1 <<< slots.length - 1
  · left
    rw [if_pos alone]
    have covers : catalog.Covers target slots [] :=
      (catalog.selectionMask_full target slots []).mp alone
    refine ⟨[], rfl, List.nil_sublist _, covers, fun _ _ _ => Nat.zero_le _,
      fun other _ _ same => ?_⟩
    rw [List.length_eq_zero_iff.mp same]
  · rw [if_neg alone]
    have start : catalog.Explored target slots [] _ := explored_start
    have explored := start.run candidates
    rw [List.nil_append] at explored
    generalize candidates.foldl (catalog.extendStates slots) _ = states at explored ⊢
    -- Whatever covers the slots is led by a state that is kept under the full mask.
    have reached (other : List InstanceSnapshot) (taken : other.Sublist candidates)
        (covers : catalog.Covers target slots other) : ∃ thinned, thinned.Sublist other ∧
          catalog.Holds target slots states (1 <<< slots.length - 1) thinned := by
      obtain ⟨thinned, thin, counts, same⟩ := exists_counting catalog target slots other
      have holds := explored.complete thinned (thin.trans taken) counts
      rw [same, (catalog.selectionMask_full target slots other).mpr covers] at holds
      exact ⟨thinned, thin, holds⟩
    cases found : states.lookup (1 <<< slots.length - 1) with
    | none =>
        right
        constructor
        · change requireSome (states.lookup _) _ _ >>= _ = _
          rw [found]
          rfl
        · intro chosen taken covers
          obtain ⟨_, _, kept, present, _⟩ := reached chosen taken covers
          cases found.symm.trans present
    | some finalStates =>
        left
        obtain ⟨count, nonempty, each⟩ :=
          explored.sound (1 <<< slots.length - 1, finalStates) (mem_of_lookup found)
        dsimp only at nonempty each
        obtain ⟨best, member, chosen, least⟩ := minBy_least (fun state : CoverState =>
          toLex (state.assignmentPriorities, selectionOrder state.selection)) nonempty
        obtain ⟨own, size⟩ := each best member
        have sorted : best.selection.insertionSort InstanceSnapshot.Before = best.selection := by
          refine List.Pairwise.insertionSort_eq ?_
          exact (ordered.sublist own.taken).imp fun less => less.le
        have minimal (other : List InstanceSnapshot) (taken : other.Sublist candidates)
            (covers : catalog.Covers target slots other) :
              ∃ thinned, thinned.Sublist other ∧ ∃ state ∈ finalStates,
              catalog.Leads target slots state.selection thinned ∧
                  best.selection.length ≤ thinned.length := by
          obtain ⟨thinned, thin, kept, present, state, listed, led⟩ := reached other taken covers
          cases found.symm.trans present
          refine ⟨thinned, thin, state, listed, led, ?_⟩
          rw [size, ← (each state listed).2]
          exact led.length_le
        refine ⟨best.selection, ?_, own.taken,
          (catalog.selectionMask_full target slots _).mp own.mask, ?_, ?_⟩
        · simp only [bind_ok, requireSome_ok, pure_ok]
          exact ⟨finalStates, found, best, chosen, sorted⟩
        · intro other taken covers
          obtain ⟨thinned, thin, _, _, _, shorter⟩ := minimal other taken covers
          exact shorter.trans thin.length_le
        · intro other taken covers equal
          obtain ⟨thinned, thin, state, listed, led, shorter⟩ := minimal other taken covers
          have whole : thinned = other := thin.eq_of_length_le (equal.trans_le shorter)
          subst whole
          obtain ⟨held, length⟩ := each state listed
          have first := least state listed
          rw [own.priorities, held.priorities] at first
          exact le_trans first (led.key_le (equal.trans (size.trans length.symm)))

end

end RoutingCatalog

section

variable {catalogContentHash : String} {templates : List RoutingTemplateSource}
variable {instances : List RoutingInstanceSource} {capabilityIds : List String}
  {router : DeterministicInstanceRouter}

theorem create_ids
    (created : DeterministicInstanceRouter.create catalogContentHash templates instances
      capabilityIds = .ok router) :
    (router.instances.map (·.id)).Nodup := by
  simp only [DeterministicInstanceRouter.create, bind_ok, pure_ok] at created
  obtain ⟨_, _, _, _, _, _, placed, instanced, rfl⟩ := created
  exact snapshotSources_ids RoutingInstanceSource.snapshot_id instanced

theorem orderedInstances_strict (distinct : (router.instances.map (·.id)).Nodup) :
    router.catalog.orderedInstances.Pairwise fun left right => left.order < right.order := by
  have sorted : router.catalog.orderedInstances.Pairwise InstanceSnapshot.Before :=
    List.pairwise_insertionSort _ _
  have perm : router.catalog.orderedInstances.Perm router.instances := List.perm_insertionSort _ _
  have ids : router.catalog.orderedInstances.Pairwise fun left right => left.id ≠ right.id :=
    List.pairwise_map.mp ((perm.map _).nodup_iff.mpr distinct)
  exact (sorted.and ids).imp fun both => lt_of_le_of_ne both.1 fun same =>
    both.2 (InstanceSnapshot.order_id same)

/-- The search over any eligible candidates selects what a search through all their subsets would,
and it fails exactly where none of them covers the slots; over the candidates of a request, exactly
where no enabled instances do. -/
theorem minimumCover_exhaustive
    (created : DeterministicInstanceRouter.create catalogContentHash templates instances
      capabilityIds = .ok router)
    (target : InstanceSnapshot) (slots : List RoutingSlot) (candidates : List InstanceSnapshot)
    (eligible : candidates.Sublist router.catalog.orderedInstances) :
    let search := router.catalog.minimumCover target (router.catalog.coverageMask target slots)
      (1 <<< slots.length - 1)
    (∀ selection, search candidates slots = .ok selection ↔
      router.catalog.LeastCover target slots candidates selection) ∧
    (∀ reason, search candidates slots = .error reason ↔ reason = RoutingCatalog.missingCover ∧
      ¬ ∃ chosen, chosen.Sublist candidates ∧ router.catalog.Covers target slots chosen) ∧
    (target ∈ router.instances →
      ((∃ reason, search (router.catalog.additionalCandidates target slots) slots = .error reason) ↔
        ¬ ∃ chosen, (∀ item ∈ chosen, item ∈ router.instances ∧ item.enabled = true) ∧
          router.catalog.Covers target slots chosen)) := by
  have distinct := create_ids created
  have strict := orderedInstances_strict distinct
  have perm : router.catalog.orderedInstances.Perm router.instances := List.perm_insertionSort _ _
  refine ⟨fun selection => ?_, fun reason => ?_, fun present => ?_⟩
  · constructor
    · intro selected
      rcases RoutingCatalog.minimumCover_cases router.catalog target slots
        (strict.sublist eligible) with ⟨least, found, covers⟩ | ⟨failed, _⟩
      · cases found.symm.trans selected
        exact covers
      · cases failed.symm.trans selected
    · intro covers
      rcases RoutingCatalog.minimumCover_cases router.catalog target slots
        (strict.sublist eligible) with ⟨least, found, other⟩ | ⟨_, never⟩
      · exact covers.unique (strict.sublist eligible) other ▸ found
      · exact absurd covers.covers (never selection covers.taken)
  · constructor
    · intro failed
      rcases RoutingCatalog.minimumCover_cases router.catalog target slots
        (strict.sublist eligible) with ⟨least, found, _⟩ | ⟨missing, never⟩
      · cases found.symm.trans failed
      · cases missing.symm.trans failed
        exact ⟨rfl, fun ⟨chosen, taken, covers⟩ => never chosen taken covers⟩
    · intro missing
      obtain ⟨rfl, never⟩ := missing
      rcases RoutingCatalog.minimumCover_cases router.catalog target slots
        (strict.sublist eligible) with ⟨least, _, covers⟩ | ⟨failed, _⟩
      · exact absurd ⟨least, covers.taken, covers.covers⟩ never
      · exact failed
  · have own : (router.catalog.additionalCandidates target slots).Sublist
      router.catalog.orderedInstances :=
      List.filter_sublist
    have known (item : InstanceSnapshot)
      (listed : item ∈ router.catalog.additionalCandidates target slots) :
        item ∈ router.instances ∧ item.enabled = true := by
      rw [RoutingCatalog.additionalCandidates, List.mem_filter, Bool.and_eq_true,
        Bool.and_eq_true] at listed
      exact ⟨perm.subset listed.1, listed.2.1.2⟩
    rcases RoutingCatalog.minimumCover_cases router.catalog target slots (strict.sublist own) with
      ⟨least, found, covers⟩ | ⟨failed, never⟩
    · constructor
      · intro failed
        obtain ⟨reason, failed⟩ := failed
        cases found.symm.trans failed
      · intro none
        exact absurd ⟨least, fun item member => known item (covers.taken.subset member),
          covers.covers⟩ none
    · refine ⟨fun _ covered => ?_, fun _ => ⟨_, failed⟩⟩
      obtain ⟨chosen, enabled, covers⟩ := covered
      -- The chosen instances that are not the target and take a slot are candidates.
      refine never ((router.catalog.additionalCandidates target slots).filter fun item =>
        item ∈ chosen) List.filter_sublist fun slot listed => ?_
      obtain ⟨item, member, takes⟩ := covers slot listed
      by_cases same : item.id = target.id
      · rcases List.mem_cons.mp member with rfl | old
        · exact ⟨item, List.mem_cons_self, takes⟩
        · have equal := List.inj_on_of_nodup_map distinct (enabled item old).1 present same
          exact ⟨target, List.mem_cons_self, equal ▸ takes⟩
      · have old : item ∈ chosen :=
          (List.mem_cons.mp member).resolve_left fun equal => same (equal ▸ rfl)
        refine ⟨item, List.mem_cons_of_mem _
          (List.mem_filter.mpr ⟨List.mem_filter.mpr ⟨?_, ?_⟩, ?_⟩), takes⟩
        · exact perm.symm.subset (enabled item old).1
        · obtain ⟨index, bound, found⟩ := List.mem_iff_getElem.mp listed
          have bit := (router.catalog.testBit_coverageMask slots item index).mpr
            ⟨slot, by rw [List.getElem?_eq_getElem bound, found], takes⟩
          have nonzero : router.catalog.coverageMask item slots ≠ 0 := by
            intro zero
            rw [zero, Nat.zero_testBit] at bit
            cases bit
          simp [same, (enabled item old).2, nonzero]
        · simpa using old

open RoutingExample in
theorem minimumCover_exhaustive_report :
    ∃ router target, DeterministicInstanceRouter.create catalogHash [writer, analyst]
        [RoutingExample.target, firstAnalyst, secondAnalyst]
          ["cap.write", "cap.analyse"] = .ok router ∧
      router.catalog.instance? "instance.writer" = some target ∧
      ∀ selection, router.catalog.minimumCover target
        (router.catalog.coverageMask target [drafting, analysing])
          (1 <<< [drafting, analysing].length - 1)
          (router.catalog.additionalCandidates target [drafting, analysing]) [drafting, analysing] =
            .ok selection ↔
        router.catalog.LeastCover target [drafting, analysing]
          (router.catalog.additionalCandidates target [drafting, analysing]) selection := by
  have created : ∃ router, DeterministicInstanceRouter.create catalogHash [writer, analyst]
      [RoutingExample.target, firstAnalyst, secondAnalyst]
        ["cap.write", "cap.analyse"] = .ok router ∧
      (router.catalog.instance? "instance.writer").isSome = true := ⟨_, rfl, rfl⟩
  obtain ⟨router, created, found⟩ := created
  obtain ⟨target, found⟩ := Option.isSome_iff_exists.mp found
  exact ⟨router, target, created, found,
    (minimumCover_exhaustive created target [drafting, analysing] _ List.filter_sublist).1⟩

end

end MarketingAgents
