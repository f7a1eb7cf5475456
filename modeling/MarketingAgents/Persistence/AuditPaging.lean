import Mathlib
import MarketingAgents.Persistence.AuditReading
import MarketingAgents.Persistence.AuditSequences

namespace MarketingAgents

open Library

/-! # Reading page after page -/

theorem mapM_unchanged {α : Type} {check : α → Except Rejection α} {items : List α}
    (accepted : ∀ item ∈ items, check item = .ok item) : items.mapM check = .ok items := by
  induction items with
  | nil => rfl
  | cons item rest ih =>
      rw [List.mapM_cons, accepted item (by simp),
        ih fun other member => accepted other (by simp [member])]
      rfl

namespace AuditLog

variable {log later : AuditLog} {runId : String}

theorem timeline_prefix (grows : log.events <+: later.events) (runId : String) :
    log.timeline runId <+: later.timeline runId :=
  grows.filter _

namespace Consistent

variable (consistent : log.Consistent)

include consistent

theorem runSequence {event : AuditEventRecord} (member : event ∈ log.timeline runId) :
    event.runSequence = some (event.runSequence.getD 0) ∧ 1 ≤ event.runSequence.getD 0 := by
  have bounds := (consistent.timeline runId).bounds member
  cases sequence : event.runSequence with
  | none =>
      rw [sequence] at bounds
      simp at bounds
  | some number =>
      rw [sequence] at bounds
      exact ⟨rfl, bounds.1⟩

theorem page_runSequences {after : Nat} (inside : after ≤ (log.timeline runId).length)
    (limit : Nat) :
    (((log.timeline runId).drop after).take limit).map (·.runSequence) =
      (List.range' (after + 1) (min limit ((log.timeline runId).length - after))).map some := by
  have numbered := (consistent.timeline runId).drop inside |>.take limit
  have known : (((log.timeline runId).drop after).take limit).map (·.runSequence) =
      ((((log.timeline runId).drop after).take limit).map fun event =>
          event.runSequence.getD 0).map some := by
    rw [List.map_map]
    refine List.map_congr_left fun event member => ?_
    exact (consistent.runSequence (List.mem_of_mem_drop (List.mem_of_mem_take member))).1
  rw [known, numbered, List.length_take, List.length_drop, Nat.add_comm 1]

theorem runSequences (runId : String) : (log.timeline runId).map (·.runSequence) =
    (List.range' 1 (log.timeline runId).length).map some := by
  have whole := consistent.page_runSequences (Nat.zero_le (log.timeline runId).length)
    (log.timeline runId).length
  simpa using whole

theorem hydrate {event : AuditEventRecord} (member : event ∈ log.events) :
    event.hydrate = .ok event := by
  have fed := (consistent.feed.bounds member).1
  have typed : event.draft.runId.isSome = event.runSequence.isSome ∧
      event.runSequence ≠ some 0 := by
    cases owner : event.draft.runId with
    | none =>
        rw [consistent.runless event member owner]
        simp
    | some runId =>
        have listed : event ∈ log.timeline runId := List.mem_filter.mpr ⟨member, by simp [owner]⟩
        obtain ⟨known, positive⟩ := consistent.runSequence listed
        rw [known]
        refine ⟨rfl, ?_⟩
        simp only [ne_eq, Option.some.injEq]
        omega
  simp [AuditEventRecord.hydrate, require, fed, typed, bind, Except.bind, pure, Except.pure]

theorem contiguous (runId : String) : log.contiguous runId (log.timeline runId).length = true := by
  have sequences : (log.timeline runId).filterMap (·.runSequence) =
      List.range' 1 (log.timeline runId).length := by
    have mapped := congrArg (List.filterMap id) (consistent.runSequences runId)
    simpa [List.filterMap_map, Function.comp_def] using mapped
  simp only [AuditLog.contiguous, sequences, decide_true, Bool.true_and]
  cases (log.timeline runId).length with
  | zero => simp
  | succ count => simp [min?_range', max?_range', Nat.add_comm]

theorem feedContiguous : log.feedContiguous log.events.length = true := by
  have sequences : log.events.map (·.feedSequence) = List.range' 1 log.events.length :=
    consistent.feed
  simp only [AuditLog.feedContiguous, sequences]
  cases log.events.length with
  | zero => simp
  | succ count => simp [max?_range', Nat.add_comm]

/-- A page of a run holds the events after the cursor, as many as the limit allows. -/
theorem listRun_eq {after limit : Nat} (known : log.timelines.get? runId ≠ none)
    (inside : after ≤ (log.timeline runId).length) (positive : 1 ≤ limit) (bounded : limit ≤ 500) :
    log.listRun runId after limit = .ok (((log.timeline runId).drop after).take limit) := by
  obtain ⟨counter, present⟩ := Option.ne_none_iff_exists'.mp known
  have counted : counter = (log.timeline runId).length := by
    rw [consistent.counter, present, Option.getD_some]
  have started : counter ≠ 0 := by
    rintro rfl
    exact consistent.started runId present
  have numbered := consistent.timeline runId
  have selected : ((log.timeline runId).filter fun event =>
      event.runSequence.any fun sequence => after < sequence && sequence ≤ counter) =
      (log.timeline runId).drop after := by
    have cut := numbered.filter_gt after
    rw [Nat.add_sub_cancel] at cut
    rw [← cut]
    refine List.filter_congr fun event member => ?_
    have bounds := numbered.bounds member
    have within : event.runSequence.getD 0 ≤ counter := by omega
    rw [(consistent.runSequence member).1]
    simp [within]
  have ordered : ((log.timeline runId).drop after).insertionSort
      (fun left right => left.runSequence.getD 0 ≤ right.runSequence.getD 0) =
      (log.timeline runId).drop after := by
    refine List.Pairwise.insertionSort_eq ?_
    exact (numbered.ascending.sublist (List.drop_sublist _ _)).imp Nat.le_of_lt
  have sequences := consistent.page_runSequences inside limit
  rw [← counted] at sequences
  have members : ∀ event ∈ ((log.timeline runId).drop after).take limit,
      event.hydrate = .ok event := by
    intro event member
    have listed := List.mem_of_mem_drop (List.mem_of_mem_take member)
    exact consistent.hydrate (List.mem_of_mem_filter listed)
  have contiguous := consistent.contiguous runId
  rw [← counted] at contiguous inside
  unfold listRun
  simp only [require, positive, bounded, and_self, if_true, requireSome, present, ne_eq, started,
    not_false_eq_true, contiguous, inside, selected, ordered, sequences, mapM_unchanged members,
      bind, Except.bind]

end Consistent

/-- The selected events up to a feed sequence, newest first. -/
def remaining (log : AuditLog) (filter : AuditFeedFilter) (cursor : Nat) : List AuditEventRecord :=
  ((log.events.take cursor).filter filter.selects).reverse

/-- The feed sequence that the next page starts at. -/
def feedCursor (watermark : Nat) (before : Option Nat) : Nat :=
  min watermark ((before.map (· - 1)).getD watermark)

theorem remaining_prefix (filter : AuditFeedFilter) {cursor : Nat}
    (grows : log.events <+: later.events) (inside : cursor ≤ log.events.length) :
      later.remaining filter cursor = log.remaining filter cursor := by
  obtain ⟨added, extended⟩ := grows
  rw [remaining, remaining, ← extended, List.take_append_of_le_length inside]

theorem selects_of_inactive {filter : AuditFeedFilter} (inactive : filter.active = false)
    (event : AuditEventRecord) : filter.selects event = true := by
  obtain ⟨runId, stepId, actionId, approvalId, eventType, occurredAtFrom, occurredAtTo⟩ := filter
  simp only [AuditFeedFilter.active, Bool.or_eq_false_iff, Option.isSome_eq_false_iff,
    Option.isNone_iff_eq_none] at inactive
  obtain ⟨⟨⟨⟨⟨⟨rfl, rfl⟩, rfl⟩, rfl⟩, rfl⟩, rfl⟩, rfl⟩ := inactive
  rfl

namespace Consistent

variable (consistent : log.Consistent) {filter : AuditFeedFilter} {cursor limit : Nat}

include consistent

theorem descending (filter : AuditFeedFilter) (cursor : Nat) :
    (log.remaining filter cursor).Pairwise fun left right =>
    right.feedSequence < left.feedSequence := by
  rw [remaining, List.pairwise_reverse]
  exact (consistent.feed.take cursor).sublist_of_filter

theorem mem_remaining {event : AuditEventRecord} (member : event ∈ log.remaining filter cursor) :
    event ∈ log.events ∧ 1 ≤ event.feedSequence ∧ event.feedSequence ≤ cursor := by
  have taken : event ∈ log.events.take cursor := by
    rw [remaining, List.mem_reverse] at member
    exact List.mem_of_mem_filter member
  have bounds := (consistent.feed.take cursor).bounds taken
  rw [List.length_take] at bounds
  exact ⟨List.mem_of_mem_take taken, bounds.1, by omega⟩

theorem filter_remaining (filter : AuditFeedFilter) {bound : Nat} (inside : bound < cursor) :
    (log.remaining filter cursor).filter (fun event => event.feedSequence < bound + 1) =
      log.remaining filter bound := by
  have cut := (consistent.feed.take cursor).filter_le bound
  rw [Nat.add_sub_cancel, List.take_take, Nat.min_eq_left (Nat.le_of_lt inside)] at cut
  rw [remaining, remaining, ← cut, List.filter_reverse, List.filter_filter, List.filter_filter]
  congr 2
  funext event
  simp [Bool.and_comm]

theorem remaining_next {watermark : Nat} :
    log.remaining filter (feedCursor watermark ((((log.remaining filter
        (feedCursor watermark before)).take limit).getLast?.map (·.feedSequence)).or before)) =
      (log.remaining filter (feedCursor watermark before)).drop limit := by
  have split := List.take_append_drop limit (log.remaining filter (feedCursor watermark before))
  cases ends : ((log.remaining filter (feedCursor watermark before)).take limit).getLast? with
  | none =>
      rw [List.getLast?_eq_none_iff.mp ends, List.nil_append] at split
      exact split.symm
  | some last =>
      obtain ⟨_, positive, bounded⟩ :=
        consistent.mem_remaining (List.mem_of_mem_take (List.mem_of_getLast? ends))
      have below : feedCursor watermark before ≤ watermark := Nat.min_le_left ..
      have next : feedCursor watermark ((some last.feedSequence).or before) =
          last.feedSequence - 1 := by
        simp only [feedCursor, Option.some_or, Option.map_some, Option.getD_some]
        omega
      have descending := consistent.descending filter (feedCursor watermark before)
      have left := filter_below_last (split.symm ▸ descending) ends
      have inside : last.feedSequence - 1 < feedCursor watermark before := by omega
      have cut := consistent.filter_remaining filter inside
      rw [split] at left
      rw [Nat.sub_add_cancel positive, left] at cut
      rw [Option.map_some, next, ← cut]

theorem page_feedSequences (inactive : filter.active = false)
    (inside : cursor ≤ log.events.length) :
    ((log.remaining filter cursor).take limit).map (·.feedSequence) =
      (List.range' (cursor + 1 - min limit cursor) (min limit cursor)).reverse := by
  have everything : log.remaining filter cursor = (log.events.take cursor).reverse := by
    rw [remaining, List.filter_eq_self.mpr fun event _ => selects_of_inactive inactive event]
  have length : (log.events.take cursor).length = cursor := by
    rw [List.length_take, Nat.min_eq_left inside]
  have numbered := (consistent.feed.take cursor).drop
      (show cursor - limit ≤ (log.events.take cursor).length by
    omega)
  have dropped : ((log.events.take cursor).drop (cursor - limit)).length = min limit cursor := by
    rw [List.length_drop, length]
    omega
  have first : 1 + (cursor - limit) = cursor + 1 - min limit cursor := by omega
  rw [Numbered, dropped, first] at numbered
  rw [everything, List.take_reverse, List.map_reverse, length, numbered]

theorem listFeed_eq {watermark : Nat} {before : Option Nat} (accepted : filter.check = .ok ())
    (positive : 1 ≤ limit) (bounded : limit ≤ 101) (committed : watermark ≤ log.events.length)
    (cursor : ∀ number, before = some number → 1 ≤ number ∧ number ≤ watermark + 1) :
    log.listFeed (some watermark) before filter limit =
      .ok ⟨watermark, (log.remaining filter (feedCursor watermark before)).take limit⟩ := by
  have counted : log.feed.getD 0 = log.events.length := consistent.feedCounter.symm
  have counter : log.feed ≠ none ∨ log.events = [] := by
    cases present : log.feed with
    | none =>
        rw [present] at counted
        exact .inr (List.length_eq_zero_iff.mp counted.symm)
    | some _ => exact .inl (by simp)
  have contiguous : log.feedContiguous (log.feed.getD 0) = true := by
    rw [counted]
    exact consistent.feedContiguous
  have known : (some watermark : Option Nat).all (· ≤ log.feed.getD 0) = true := by
    rw [counted]
    simpa using committed
  have boundary : before.all (fun number => 1 ≤ number && number ≤ watermark + 1) = true := by
    cases before with
    | none => rfl
    | some number => simpa using cursor number rfl
  have below : feedCursor watermark before ≤ watermark := Nat.min_le_left ..
  have selected : ((log.events.filter fun event => event.feedSequence ≤ watermark &&
      before.all (event.feedSequence < ·) && filter.selects event).insertionSort
        fun left right => right.feedSequence ≤ left.feedSequence) =
      log.remaining filter (feedCursor watermark before) := by
    have cut := consistent.feed.filter_le (feedCursor watermark before)
    rw [Nat.add_sub_cancel] at cut
    have same : (log.events.filter fun event => event.feedSequence ≤ watermark &&
        before.all (event.feedSequence < ·) && filter.selects event) =
        (log.events.take (feedCursor watermark before)).filter filter.selects := by
      rw [← cut, List.filter_filter]
      refine List.filter_congr fun event _ => ?_
      cases before with
      | none => simp [feedCursor, Bool.and_comm]
      | some number =>
          have positive := (cursor number rfl).1
          have bound : event.feedSequence ≤ number - 1 ↔ event.feedSequence < number := by omega
          simp [feedCursor, bound, Bool.and_comm]
    rw [same]
    exact insertionSort_ascending (consistent.feed.take _).sublist_of_filter
  have members : ∀ event ∈ (log.remaining filter (feedCursor watermark before)).take limit,
      event.hydrate = .ok event :=
    fun event member => consistent.hydrate
      (consistent.mem_remaining (List.mem_of_mem_take member)).1
  by_cases nothing : watermark = 0
  · subst nothing
    have empty : log.remaining filter (feedCursor 0 before) = [] := by simp [feedCursor, remaining]
    unfold listFeed
    simp only [accepted, require, positive, bounded, and_self, if_true, counter, contiguous, known,
      Option.getD_some, boundary, bind, Except.bind, empty, List.take_nil]
    rfl
  · have order : (((log.remaining filter (feedCursor watermark before)).take limit).map
      (·.feedSequence)) =
        (((log.remaining filter (feedCursor watermark before)).take limit).map
          (·.feedSequence)).insertionSort (· ≥ ·) := by
      refine (List.Pairwise.insertionSort_eq ?_).symm
      rw [List.pairwise_map]
      exact ((consistent.descending filter _).sublist (List.take_sublist _ _)).imp Nat.le_of_lt
    have page : filter.active = true ∨
        ((log.remaining filter (feedCursor watermark before)).take limit).map (·.feedSequence) =
          (List.range' (feedCursor watermark before + 1 - min limit (feedCursor watermark before))
            (min limit (feedCursor watermark before))).reverse := by
      cases inactive : filter.active with
      | true => exact .inl rfl
      | false => exact .inr (consistent.page_feedSequences inactive (Nat.le_trans below committed))
    unfold listFeed
    simp only [accepted, require, positive, bounded, and_self, if_true, counter, contiguous, known,
      Option.getD_some, boundary, bind, Except.bind, nothing, if_false, selected,
        mapM_unchanged members]
    rw [if_pos order]
    simp only [← feedCursor.eq_1, if_pos page]
    rfl

theorem listFeed_none :
    log.listFeed none before filter limit = log.listFeed
      (some log.events.length) before filter limit := by
  have counted : log.feed.getD 0 = log.events.length := consistent.feedCounter.symm
  unfold listFeed
  simp [counted]

end Consistent

/-- Read a run from a cursor on, one page of each of the given logs, always
after the last sequence seen. -/
def pageRun (runId : String) : List (AuditLog × Nat) → Nat →
    Except Rejection (List (List AuditEventRecord))
  | [], _ => return []
  | (log, limit) :: rest, after => do
      let page ← log.listRun runId after limit
      let pages ← pageRun runId rest ((page.getLast?.bind (·.runSequence)).getD after)
      return page :: pages

/-- Read the feed downwards, one page of each of the given logs, always with the
watermark of the page before and below the last feed sequence seen. -/
def pageFeed (filter : AuditFeedFilter) : List (AuditLog × Nat) → Option Nat → Option Nat →
    Except Rejection (List AuditFeedPage)
  | [], _, _ => return []
  | (log, limit) :: rest, highWatermark, before => do
      let page ← log.listFeed highWatermark before filter limit
      let pages ← pageFeed filter rest (some page.highWatermark)
        ((page.events.getLast?.map (·.feedSequence)).or before)
      return page :: pages

end AuditLog

namespace AuditSystem

variable {system : AuditSystem}

/-- The logs that a reader sees one after the other, whatever commits between
two pages, each with the limit of its page. -/
inductive Visits : AuditSystem → List (AuditLog × Nat) → Prop where
  | nil {system : AuditSystem} : Visits system []
  | cons {system later : AuditSystem} {limit : Nat} {rest : List (AuditLog × Nat)}
      (run : auditMachine.Run system later) (visits : Visits later rest) :
      Visits system ((later.log, limit) :: rest)

theorem Visits.last {front : List (AuditLog × Nat)} {log : AuditLog} {limit : Nat}
    (reached : auditMachine.Reachable system) (visits : Visits system (front ++ [(log, limit)])) :
    log.Consistent ∧ system.log.events <+: log.events := by
  induction front generalizing system with
  | nil =>
      cases visits with
      | cons run _ => exact ⟨(Ordered.reachable (reached.continue run)).consistent, run_grows run⟩
  | cons visit rest ih =>
      cases visits with
      | cons run visits =>
          obtain ⟨consistent, grows⟩ := ih (reached.continue run) visits
          exact ⟨consistent, (run_grows run).trans grows⟩

theorem page_cursor {log : AuditLog} {after limit : Nat} (consistent : log.Consistent)
    (inside : after ≤ (log.timeline runId).length) :
    ((((log.timeline runId).drop after).take limit).getLast?.bind (·.runSequence)).getD after =
      after + (((log.timeline runId).drop after).take limit).length := by
  have sequences := consistent.page_runSequences inside limit
  have length : (((log.timeline runId).drop after).take limit).length =
      min limit ((log.timeline runId).length - after) := by
    rw [List.length_take, List.length_drop]
  rw [← length] at sequences
  generalize ((log.timeline runId).drop after).take limit = page at sequences
  have last := congrArg List.getLast? sequences
  rw [List.getLast?_map, List.getLast?_map] at last
  cases count : page.length with
  | zero =>
      rw [List.length_eq_zero_iff.mp count]
      rfl
  | succ rest =>
      rw [count, List.range'_1_concat, List.getLast?_append_of_ne_nil _ (by simp)] at last
      obtain ⟨event, ends, sequence⟩ := Option.map_eq_some_iff.mp (last.trans rfl)
      rw [ends, Option.bind_some, sequence, Option.getD_some, List.getLast_singleton]
      omega

theorem timeline_kept (reached : auditMachine.Reachable system)
    (known : system.log.timelines.get? runId ≠ none) (run : auditMachine.Run system later) :
    later.log.Consistent ∧ later.log.timelines.get? runId ≠ none ∧
      system.log.timeline runId <+: later.log.timeline runId := by
  have before := (Ordered.reachable reached).consistent
  have now := (Ordered.reachable (reached.continue run)).consistent
  have grows := AuditLog.timeline_prefix (run_grows run) runId
  refine ⟨now, fun gone => ?_, grows⟩
  obtain ⟨counter, present⟩ := Option.ne_none_iff_exists'.mp known
  have counted := before.counter runId
  have recounted := now.counter runId
  rw [present, Option.getD_some] at counted
  rw [gone, Option.getD_none] at recounted
  have positive : counter ≠ 0 := by
    rintro rfl
    exact before.started runId present
  have grown := grows.length_le
  omega

/-- What a reader of one run has after its last page. -/
theorem pageRun_covers {front : List (AuditLog × Nat)} {log : AuditLog} {limit after : Nat}
    (reached : auditMachine.Reachable system) (known : system.log.timelines.get? runId ≠ none)
    (visits : Visits system (front ++ [(log, limit)]))
    (limits : ∀ visit ∈ front ++ [(log, limit)], 1 ≤ visit.2 ∧ visit.2 ≤ 500)
    (inside : after ≤ (system.log.timeline runId).length) :
    ∃ pages, AuditLog.pageRun runId (front ++ [(log, limit)]) after = .ok pages ∧
      (log.timeline runId).take after ++ pages.flatten <+: log.timeline runId ∧
      min ((front ++ [(log, limit)]).map (·.2)).sum ((system.log.timeline runId).length - after) ≤
        pages.flatten.length := by
  induction front generalizing system after with
  | nil =>
      cases visits with
      | @cons _ last _ _ run _ =>
          obtain ⟨consistent, present, grows⟩ := timeline_kept reached known run
          obtain ⟨positive, bounded⟩ := limits _ (List.mem_singleton_self _)
          have more := grows.length_le
          have within := Nat.le_trans inside more
          refine ⟨[((last.log.timeline runId).drop after).take limit], ?_, ?_, ?_⟩
          · rw [List.nil_append, AuditLog.pageRun,
              consistent.listRun_eq present within positive bounded]
            rfl
          · rw [List.flatten_singleton, ← List.take_add]
            exact List.take_prefix _ _
          · simp only [List.nil_append, List.map_cons, List.map_nil, List.sum_cons, List.sum_nil,
              List.flatten_singleton, List.length_take, List.length_drop]
            omega
  | cons visit rest ih =>
      cases visits with
      | @cons _ middle first _ run visits =>
          obtain ⟨consistent, present, grows⟩ := timeline_kept reached known run
          obtain ⟨positive, bounded⟩ := limits _ (List.mem_cons_self ..)
          have more := grows.length_le
          have within := Nat.le_trans inside more
          have reached' := reached.continue run
          obtain ⟨_, later⟩ := Visits.last reached' visits
          obtain ⟨added, extended⟩ := AuditLog.timeline_prefix later runId
          have length : (((middle.log.timeline runId).drop after).take first).length =
              min first ((middle.log.timeline runId).length - after) := by
            rw [List.length_take, List.length_drop]
          have reaches : after + (((middle.log.timeline runId).drop after).take first).length ≤
              (middle.log.timeline runId).length := by
            omega
          obtain ⟨pages, read, prefixed, enough⟩ := ih reached' present visits
            (fun visit member => limits visit (List.mem_cons_of_mem _ member)) reaches
          have taken : (log.timeline runId).take
              (after + (((middle.log.timeline runId).drop after).take first).length) =
              (log.timeline runId).take after ++
                  ((middle.log.timeline runId).drop after).take first := by
            rw [← extended, List.take_append_of_le_length reaches,
              List.take_append_of_le_length within,
              List.take_add, length, ← List.length_drop, ← List.take_take, List.take_length]
          refine ⟨((middle.log.timeline runId).drop after).take first :: pages, ?_, ?_, ?_⟩
          · rw [List.cons_append, AuditLog.pageRun,
              consistent.listRun_eq present within positive bounded]
            simp only [bind, Except.bind, page_cursor consistent within, read]
            rfl
          · rw [taken, List.append_assoc] at prefixed
            exact prefixed
          · rw [List.cons_append, List.map_cons, List.sum_cons, List.flatten_cons,
              List.length_append]
            omega

/-- What a reader of the feed has after its last page. -/
theorem pageFeed_covers {filter : AuditFeedFilter} {watermark : Nat}
    {before : Option Nat} (reached : auditMachine.Reachable system)
    (accepted : filter.check = .ok ())
    (visits : Visits system pages) (limits : ∀ visit ∈ pages, 1 ≤ visit.2 ∧ visit.2 ≤ 101)
    (committed : watermark ≤ system.log.events.length)
    (cursor : ∀ number, before = some number → 1 ≤ number ∧ number ≤ watermark + 1) :
    ∃ read, AuditLog.pageFeed filter pages (some watermark) before = .ok read ∧
      (∀ page ∈ read, page.highWatermark = watermark) ∧
      read.flatMap (·.events) =
        (system.log.remaining filter (AuditLog.feedCursor watermark before)).take
          (pages.map (·.2)).sum := by
  have below : ∀ number, AuditLog.feedCursor watermark number ≤ watermark :=
    fun _ => Nat.min_le_left ..
  induction pages generalizing system before with
  | nil => exact ⟨[], rfl, by simp, by simp⟩
  | cons visit rest ih =>
      cases visits with
      | @cons _ middle first _ run visits =>
          have consistent := (Ordered.reachable (reached.continue run)).consistent
          obtain ⟨positive, bounded⟩ := limits _ (List.mem_cons_self ..)
          have within := Nat.le_trans committed (run_grows run).length_le
          have same := AuditLog.remaining_prefix filter (run_grows run)
            (Nat.le_trans (below before) committed)
          have next : ∀ number,
            (((middle.log.remaining filter (AuditLog.feedCursor watermark before)).take
              first).getLast?.map (·.feedSequence)).or before = some number →
              1 ≤ number ∧ number ≤ watermark + 1 := by
            intro number chosen
            cases ends : ((middle.log.remaining filter (AuditLog.feedCursor watermark before)).take
                first).getLast? with
            | none =>
                rw [ends] at chosen
                exact cursor number chosen
            | some last =>
                rw [ends, Option.map_some, Option.some_or, Option.some.injEq] at chosen
                have member := List.mem_of_mem_take (List.mem_of_getLast? ends)
                obtain ⟨_, positive, most⟩ := consistent.mem_remaining member
                have := below before
                omega
          obtain ⟨pages, read, marked, whole⟩ := ih (reached.continue run) visits
            (fun visit member => limits visit (List.mem_cons_of_mem _ member)) within next
          refine ⟨⟨watermark, (middle.log.remaining filter
            (AuditLog.feedCursor watermark before)).take first⟩ ::
            pages, ?_, ?_, ?_⟩
          · rw [AuditLog.pageFeed, consistent.listFeed_eq accepted positive bounded within cursor]
            simp only [bind, Except.bind, read]
            rfl
          · intro page member
            rcases List.mem_cons.mp member with rfl | later
            · rfl
            · exact marked page later
          · rw [List.flatMap_cons, whole, consistent.remaining_next, same, List.map_cons,
              List.sum_cons, List.take_add]

/-- Committed sequences have neither gaps nor repetitions, and a reader that
pages through a run or through the feed sees every event once and in order. -/
theorem paging_exact (reached : auditMachine.Reachable system) :
    (∀ runId, (system.log.timeline runId).map (·.runSequence) =
        (List.range' 1 (system.log.timeline runId).length).map some) ∧
      system.log.events.map (·.feedSequence) = List.range' 1 system.log.events.length ∧
      (∀ runId front log limit after, system.log.timelines.get? runId ≠ none →
        Visits system (front ++ [(log, limit)]) →
        (∀ visit ∈ front ++ [(log, limit)], 1 ≤ visit.2 ∧ visit.2 ≤ 500) →
        after ≤ (system.log.timeline runId).length →
        ∃ pages, AuditLog.pageRun runId (front ++ [(log, limit)]) after = .ok pages ∧
          (log.timeline runId).take after ++ pages.flatten <+: log.timeline runId ∧
          min ((front ++ [(log, limit)]).map (·.2)).sum
            ((system.log.timeline runId).length - after) ≤ pages.flatten.length) ∧
      ∀ filter limit visits, filter.check = .ok () → Visits system visits →
        (∀ visit ∈ (system.log, limit) :: visits, 1 ≤ visit.2 ∧ visit.2 ≤ 101) →
        ∃ pages, AuditLog.pageFeed filter ((system.log, limit) :: visits) none none = .ok pages ∧
          (∀ page ∈ pages, page.highWatermark = system.log.events.length) ∧
          pages.flatMap (·.events) = ((system.log.events.filter filter.selects).reverse).take
            (((system.log, limit) :: visits).map (·.2)).sum := by
  have consistent := (Ordered.reachable reached).consistent
  refine ⟨consistent.runSequences, consistent.feed, ?_, ?_⟩
  · intro runId front log limit after known visits limits inside
    exact pageRun_covers reached known visits limits inside
  · intro filter limit visits accepted visited limits
    have boundary : ∀ number, (none : Option Nat) = some number →
        1 ≤ number ∧ number ≤ system.log.events.length + 1 := by simp
    obtain ⟨pages, read, marked, whole⟩ := pageFeed_covers reached accepted
      (.cons .refl visited : Visits system ((system.log, limit) :: visits)) limits
        (Nat.le_refl _) boundary
    refine ⟨pages, ?_, marked, ?_⟩
    · rw [AuditLog.pageFeed, consistent.listFeed_none]
      exact read
    · rw [whole, AuditLog.remaining]
      simp [AuditLog.feedCursor]

/-- Committed rows that no transaction is working on. -/
def settled (log : AuditLog) : AuditSystem := { log, transactions _ := none }

/-- One open transaction. -/
def alone (log : AuditLog) (transaction : AuditTransaction) : AuditSystem :=
  (settled log).write "writer" (some transaction)

/-- What an open transaction has written once its append is through. -/
def appended (log : AuditLog) (transaction : AuditTransaction) (drafts : List AuditEventDraft) :
    AuditTransaction :=
  (fun transaction => transaction.resume (log.seenBy transaction))^[7]
    (transaction.appendMany (log.seenBy transaction) drafts)

section Alone

variable {log : AuditLog} {transaction : AuditTransaction}

theorem alone_holds : (alone log transaction).transactions "writer" = some transaction := by
  simp [alone, write]

theorem alone_write {after : Option AuditTransaction} :
    (alone log transaction).write "writer" after = (settled log).write "writer" after := by
  simp [alone, write]

theorem alone_free (holds : AuditTransaction → Bool) :
    (alone log transaction).Free "writer" holds := by
  intro other found differs present
  simp [alone, settled, write, differs] at present

theorem settled_begun : auditMachine.Run (settled log) (alone log .empty) :=
  .tail ("writer", AuditOperation.begin) .refl trivial ⟨rfl, rfl⟩

theorem alone_received
    (accepted : transaction.receive (log.seenBy transaction) runId = some received) :
    auditMachine.Run (alone log transaction) (alone log received) :=
  .tail ("writer", AuditOperation.receive runId) .refl trivial
    ⟨transaction, received, alone_holds, alone_free _, accepted, alone_write.symm⟩

theorem alone_resumed (count : Nat) : auditMachine.Run (alone log transaction)
    (alone log ((fun transaction => transaction.resume (log.seenBy transaction))^[count]
      transaction)) := by
  induction count with
  | zero => exact .refl
  | succ count ih =>
      rw [Function.iterate_succ_apply']
      exact ih.tail ("writer", AuditOperation.resume) trivial
        ⟨_, alone_holds, fun _ => alone_free _, alone_write.symm⟩

theorem alone_appended {drafts : List AuditEventDraft} (ready : transaction.stage = .idle ∨
      ∃ runId, transaction.stage = .received runId ∧ drafts.head?.bind (·.runId) = some runId) :
    auditMachine.Run (alone log transaction) (alone log (appended log transaction drafts)) := by
  have counted : auditMachine.Run (alone log transaction)
      (alone log (transaction.appendMany (log.seenBy transaction) drafts)) :=
    .tail ("writer", AuditOperation.appendMany drafts) .refl trivial
      ⟨transaction, alone_holds, ready, fun _ _ => alone_free _, alone_write.symm⟩
  exact counted.trans (alone_resumed 7)

theorem alone_abandoned : auditMachine.Run (alone log transaction) (settled log) := by
  refine .tail ("writer", AuditOperation.rollback) .refl trivial ?_
  change settled log = (alone log transaction).write "writer" none
  simp [alone, write, settled]

theorem alone_committed (written : transaction.stage = .idle) :
    auditMachine.Run (alone log transaction) (settled (log.seenBy transaction)) := by
  refine .tail ("writer", AuditOperation.commit) .refl trivial
    ⟨transaction, alone_holds, written, ?_⟩
  simp [alone, write, settled]

end Alone

def draft (id runId : String) (version : Nat) : AuditEventDraft where
  id
  runId := some runId
  scheduleId := none
  occurrenceId := none
  eventType := if version = 1 then .runReceived else .runTransitioned
  aggregateId := runId
  safeMetadata := []
  occurredAt := 0
  stepId := none
  actionId := none
  approvalRequestId := none
  attemptId := none
  mutationVersion := some version

/-- A transaction that inserted the row of a new run. -/
def receiving (runId : String) : AuditTransaction :=
  { AuditTransaction.empty with timelines := Table.empty.put runId 0, stage := .received runId }

def unwritten : AuditLog := { timelines := .empty, feed := none, events := [] }

def oneRun : AuditLog :=
  unwritten.seenBy (appended unwritten (receiving "run-1") [draft "event-1" "run-1" 1])

def twoRuns : AuditLog :=
  oneRun.seenBy (appended oneRun (receiving "run-2") [draft "event-2" "run-2" 1])

def continued : AuditLog := twoRuns.seenBy (appended twoRuns .empty [draft "event-3" "run-1" 2])

/-- The second run is received twice, because the first transaction is rolled back. -/
theorem twoRuns_reached : auditMachine.Reachable (settled twoRuns) := by
  have inserted (log : AuditLog) (runId id : String) (fresh : AuditTransaction.empty.receive
      (log.seenBy .empty) runId = some (receiving runId)) : auditMachine.Run (settled log)
        (alone log (appended log (receiving runId) [draft id runId 1])) :=
    settled_begun.trans ((alone_received fresh).trans (alone_appended (.inr ⟨runId, rfl, rfl⟩)))
  have first := (inserted unwritten "run-1" "event-1" (by decide)).trans
    (alone_committed (by decide))
  have second := inserted oneRun "run-2" "event-2" (by decide)
  have twice := (second.trans alone_abandoned).trans (second.trans (alone_committed (by decide)))
  have started : auditMachine.Reachable (settled unwritten) := .start ⟨rfl, fun _ => rfl⟩
  exact started.continue (first.trans twice)

theorem twoRuns_continued : auditMachine.Run (settled twoRuns) (settled continued) :=
  settled_begun.trans ((alone_appended (.inl rfl)).trans (alone_committed (by decide)))

/-- Two pages of a run and of the feed, between which the run is continued. -/
theorem paging_exact_two_runs :
    twoRuns.events.map (·.feedSequence) = [1, 2] ∧
    continued.events.map (·.feedSequence) = [1, 2, 3] ∧
      (∃ pages, AuditLog.pageRun "run-1" [(twoRuns, 1), (continued, 5)] 0 = .ok pages ∧
        pages.flatten <+: continued.timeline "run-1" ∧ 1 ≤ pages.flatten.length) ∧
      ∃ pages, AuditLog.pageFeed ⟨none, none, none, none, none, none, none⟩
          [(twoRuns, 1), (continued, 50)] none none = .ok pages ∧
        pages.flatMap (·.events) = twoRuns.events.reverse := by
  obtain ⟨_, feed, runs, pages⟩ := paging_exact twoRuns_reached
  have stays : Visits (settled twoRuns) [(twoRuns, 1), (continued, 5)] :=
    .cons .refl (.cons twoRuns_continued .nil)
  refine ⟨feed, by decide, ?_, ?_⟩
  · obtain ⟨pages, read, prefixed, enough⟩ :=
      runs "run-1" [(twoRuns, 1)] continued 5 0 (by decide) stays (by simp) (Nat.zero_le _)
    exact ⟨pages, read, prefixed, Nat.le_trans (by decide) enough⟩
  · obtain ⟨pages, read, -, whole⟩ :=
      pages ⟨none, none, none, none, none, none, none⟩ 1 [(continued, 50)] rfl
      (.cons twoRuns_continued .nil) (by simp)
    exact ⟨pages, read, whole⟩

end AuditSystem

end MarketingAgents
