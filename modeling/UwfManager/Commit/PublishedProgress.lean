import Mathlib.Algebra.Group.Int.Defs
import UwfManager.Commit.CommitPreparation

/-!
# The progress of a preparation

A preparation does not count its records again for each progress value: it takes a record
that it replaces out of the counts and adds the new one.  Each value that is published
still counts the records of the plan at that moment, and names the record just stored.
-/

namespace UwfManager

/-! ## Counting -/

namespace CommitTraversalProgress

/-- The counts after these records were added. -/
def tally (start : CommitTraversalProgress) (records : List CommitTraversalRecord) :
    CommitTraversalProgress :=
  records.foldl (fun counts record => counts.count record 1) start

theorem count_comm (counts : CommitTraversalProgress) (first second : CommitTraversalRecord)
    (sign other : ℤ) :
    (counts.count first sign).count second other = (counts.count second other).count first sign := by
  cases hfirst : first.status <;> cases hsecond : second.status <;>
    cases hcontainer : first.node.kind.container <;>
    cases hcontainer' : second.node.kind.container <;>
    simp [count, hfirst, hsecond, hcontainer, hcontainer', Int.add_right_comm]

/-- What a record has added is taken back. -/
theorem count_neg (counts : CommitTraversalProgress) (record : CommitTraversalRecord) :
    (counts.count record 1).count record (-1) = counts := by
  cases hstatus : record.status <;> cases hcontainer : record.node.kind.container <;>
    simp [count, hstatus, hcontainer]

theorem count_named (counts : CommitTraversalProgress) (record : CommitTraversalRecord) (sign : ℤ)
    (path : Text) (kind : Option CommitTargetKind) :
    { counts.count record sign with path := path, kind := kind } =
      ({ counts with path := path, kind := kind } : CommitTraversalProgress).count record sign := by
  rw [count, count]
  cases record.status with
  | succeeded =>
      dsimp only
      split_ifs <;> rfl
  | failed => rfl
  | skipped => rfl

theorem tally_count (start : CommitTraversalProgress) (records : List CommitTraversalRecord)
    (record : CommitTraversalRecord) (sign : ℤ) :
    (start.tally records).count record sign = (start.count record sign).tally records := by
  induction records generalizing start with
  | nil => rfl
  | cons first rest ih =>
      calc
        ((start.count first 1).tally rest).count record sign =
            ((start.count first 1).count record sign).tally rest := ih (start.count first 1)
        _ = ((start.count record sign).count first 1).tally rest := by rw [count_comm]

theorem tally_named (start : CommitTraversalProgress) (records : List CommitTraversalRecord)
    (path : Text) (kind : Option CommitTargetKind) :
    { start.tally records with path := path, kind := kind } =
      ({ start with path := path, kind := kind } : CommitTraversalProgress).tally records := by
  induction records generalizing start with
  | nil => rfl
  | cons first rest ih =>
      calc
        { (start.count first 1).tally rest with path := path, kind := kind } =
            ({ start.count first 1 with path := path, kind := kind } :
              CommitTraversalProgress).tally rest := ih (start.count first 1)
        _ = (({ start with path := path, kind := kind } :
              CommitTraversalProgress).count first 1).tally rest := by rw [count_named]

theorem tally_kind (start : CommitTraversalProgress) (records : List CommitTraversalRecord) :
    (start.tally records).kind = start.kind := by
  have hnamed := congrArg kind (tally_named start records start.path start.kind)
  exact hnamed.symm

theorem tally_path (start : CommitTraversalProgress) (records : List CommitTraversalRecord)
    (path : Text) :
    { start.tally records with path := path } =
      ({ start with path := path } : CommitTraversalProgress).tally records :=
  (congrArg (fun kind => { start.tally records with path := path, kind := kind })
    (tally_kind start records)).trans (tally_named start records path start.kind)

theorem tally_append (start : CommitTraversalProgress) (records : List CommitTraversalRecord)
    (record : CommitTraversalRecord) :
    start.tally (records ++ [record]) = (start.tally records).count record 1 := by
  rw [tally, List.foldl_append]
  rfl

/-- A record is replaced in the counts as it is in the list. -/
theorem tally_set (start : CommitTraversalProgress) {records : List CommitTraversalRecord}
    {index : ℕ} (hindex : index < records.length) (record : CommitTraversalRecord) :
    start.tally (records.set index record) =
      ((start.tally records).count records[index] (-1)).count record 1 := by
  induction records generalizing start index with
  | nil => exact absurd hindex (Nat.not_lt_zero index)
  | cons first rest ih =>
      cases index with
      | zero =>
          calc
            (start.count record 1).tally rest = (start.tally rest).count record 1 :=
              (tally_count start rest record 1).symm
            _ = (((start.count first 1).count first (-1)).tally rest).count record 1 := by
              rw [count_neg]
            _ = (((start.count first 1).tally rest).count first (-1)).count record 1 := by
              rw [tally_count _ rest first]
      | succ index => exact ih (start.count first 1) (Nat.lt_of_succ_lt_succ hindex)

end CommitTraversalProgress

/-- The plan behind a published value, and the place of the record stored in front of it. -/
structure PublishedMoment where
  plan : CommitPlan
  place : ℕ

/-- The value is the progress of the plan, with the path of the record just stored. -/
def PublishedMoment.Shows (value : CommitTraversalProgress) (moment : PublishedMoment) : Prop :=
  ∃ record, moment.plan.records[moment.place]? = some record ∧
    value = { moment.plan.progress with path := record.node.display }

namespace PreparationState

variable {σ : Type*} (qt : Qt) (source : TraversalSource σ)

/-! ## The moments that progress is published for -/

/-- A discovery publishes last, if at all.  Its record takes the place of the previous
one, or the next place. -/
def discoverMoments (state : PreparationState σ) (candidate : CommitNode) :
    List PublishedMoment :=
  if (state.discover qt source candidate).published.length = state.published.length then []
  else
    [⟨(state.discover qt source candidate).plan,
      (state.indexOf qt candidate).getD state.plan.records.length⟩]

def publishedMoments : PreparationState σ → List CommitNode → List PublishedMoment
  | _, [] => []
  | state, candidate :: rest =>
      state.discoverMoments qt source candidate ++
        publishedMoments (state.discover qt source candidate) rest

/-- The moments of the discoveries during the read of an observed node. -/
def examineMoments (target : CommitNode) (state : PreparationState σ) (candidate : CommitNode) :
    List PublishedMoment :=
  let observed := source.inspect candidate state.source
  let state := { state with
    visited := candidate.identity qt :: state.visited, source := observed.2 }
  match observed.1 with
  | .ok (some node) =>
      let state := { state with
        visited := node.identity qt :: state.visited, plan := noteTarget qt target node state.plan }
      if !node.skippedReason.isEmpty then []
      else
        let outcome := source.read node state.source
        publishedMoments qt source { state with source := outcome.2, reads := state.reads ++ [node] }
          outcome.1.published
  | _ => []

def visitMoments (target : CommitNode) (state : PreparationState σ) (candidate : CommitNode) :
    List PublishedMoment :=
  if state.visited.contains (candidate.identity qt) || state.finished qt candidate then []
  else
    state.examineMoments qt source target candidate ++
      if source.stopRequested (state.examine qt source target candidate).2.source then []
      else
        [⟨(state.visit qt source target candidate).plan, (state.indexOf qt candidate).getD
          (state.examine qt source target candidate).2.plan.records.length⟩]

/-- The state after so many rounds of the loop, or at its end. -/
def rounds (target : CommitNode) : ℕ → PreparationState σ → PreparationState σ
  | 0, state => state
  | count + 1, state =>
      match state.pending with
      | [] => state
      | candidate :: rest =>
          if source.stopRequested state.source then state
          else rounds target count ({ state with pending := rest }.visit qt source target candidate)

def roundMoments (target : CommitNode) : ℕ → PreparationState σ → List PublishedMoment
  | 0, _ => []
  | count + 1, state =>
      match state.pending with
      | [] => []
      | candidate :: rest =>
          if source.stopRequested state.source then []
          else
            let taken := { state with pending := rest }
            taken.visitMoments qt source target candidate ++
              roundMoments target count (taken.visit qt source target candidate)

theorem drain_eq_rounds (target : CommitNode) {fuel : ℕ} {state final : PreparationState σ}
    (hfinal : drain qt source target fuel state = some final) :
    final = rounds qt source target fuel state := by
  induction fuel generalizing state with
  | zero =>
      rw [drain] at hfinal
      split_ifs at hfinal
      exact (Option.some.inj hfinal).symm
  | succ fuel ih =>
      rw [drain] at hfinal
      rw [rounds]
      cases hpending : state.pending with
      | nil =>
          rw [hpending] at hfinal
          exact (Option.some.inj hfinal).symm
      | cons candidate rest =>
          rw [hpending] at hfinal
          dsimp only at hfinal ⊢
          split_ifs at hfinal ⊢ with hstop
          · exact (Option.some.inj hfinal).symm
          · exact ih hfinal

/-! ## What publishing keeps -/

variable {qt source}

/-- The counts are those of the records, and the indexes point to records. -/
structure Counted (state : PreparationState σ) : Prop where
  counts : ∃ path kind, state.counts =
    ({ path := path, kind := kind } : CommitTraversalProgress).tally state.plan.records
  indexes : ∀ identity index, state.indexes identity = some index →
    index < state.plan.records.length

/-- From one state to another, progress was published for these moments. -/
structure Publishes (state after : PreparationState σ) (moments : List PublishedMoment) :
    Prop where
  counted : Counted after
  grows : state.plan.records.length ≤ after.plan.records.length
  published : ∃ values, after.published = state.published ++ values ∧
    List.Forall₂ PublishedMoment.Shows values moments

theorem Publishes.refl {state : PreparationState σ} (hcounted : Counted state) :
    Publishes state state [] :=
  ⟨hcounted, Nat.le_refl _, [], (List.append_nil _).symm, List.Forall₂.nil⟩

theorem Publishes.trans {first second third : PreparationState σ}
    {moments others : List PublishedMoment} (hfirst : Publishes first second moments)
    (hsecond : Publishes second third others) : Publishes first third (moments ++ others) := by
  obtain ⟨-, hgrows, values, hvalues, hshown⟩ := hfirst
  obtain ⟨hcounted, hgrows', values', hvalues', hshown'⟩ := hsecond
  refine ⟨hcounted, hgrows.trans hgrows', values ++ values', ?_, List.rel_append hshown hshown'⟩
  rw [hvalues', hvalues, List.append_assoc]

theorem store_counted {state : PreparationState σ} (hcounted : Counted state)
    {record : CommitTraversalRecord} {previous : Option ℕ}
    (hprevious : ∀ index, previous = some index → index < state.plan.records.length) :
    (∃ path kind, (state.store qt record previous).counts.count record 1 =
        ({ path := path, kind := kind } : CommitTraversalProgress).tally
          (state.store qt record previous).plan.records) ∧
      (∀ identity index, (state.store qt record previous).indexes identity = some index →
        index < (state.store qt record previous).plan.records.length) ∧
      state.plan.records.length ≤ (state.store qt record previous).plan.records.length ∧
      (state.store qt record previous).plan.records[previous.getD state.plan.records.length]? =
        some record ∧
      (state.store qt record previous).published = state.published := by
  obtain ⟨⟨path, kind, hcounts⟩, hindexes⟩ := hcounted
  cases previous with
  | none =>
      rw [store]
      dsimp only
      refine ⟨⟨path, kind, ?_⟩, fun identity index hindex => ?_, ?_,
        List.getElem?_concat_length, rfl⟩
      · rw [hcounts, CommitTraversalProgress.tally_append]
      · rw [List.length_append, List.length_singleton]
        rw [Function.update_apply] at hindex
        split_ifs at hindex
        · injection hindex with hindex
          omega
        · exact Nat.lt_succ_of_lt (hindexes identity index hindex)
      · rw [List.length_append]
        exact Nat.le_add_right _ _
  | some place =>
      have hplace := hprevious place rfl
      rw [store]
      dsimp only
      rw [List.getElem?_eq_getElem hplace]
      refine ⟨⟨path, kind, ?_⟩, fun identity index hindex => ?_, ?_,
        List.getElem?_set_self hplace, rfl⟩
      · dsimp only [Option.elim]
        rw [hcounts, CommitTraversalProgress.tally_set _ hplace]
      · rw [List.length_set]
        rw [Function.update_apply] at hindex
        split_ifs at hindex
        · injection hindex with hindex
          omega
        · dsimp only [Option.elim] at hindex
          rw [Function.update_apply] at hindex
          split_ifs at hindex
          exact hindexes identity index hindex
      · rw [List.length_set]

theorem remember_publishes {state : PreparationState σ} (hcounted : Counted state)
    {record : CommitTraversalRecord} {previous : Option ℕ}
    (hprevious : ∀ index, previous = some index → index < state.plan.records.length) :
    Publishes state (state.remember qt record previous)
      [⟨(state.remember qt record previous).plan,
        previous.getD state.plan.records.length⟩] := by
  obtain ⟨⟨path, kind, hcounts⟩, hindexes, hgrows, hstored, hpublished⟩ :=
    @store_counted σ qt state hcounted (withHistory record) previous hprevious
  rw [remember]
  dsimp only
  rw [hcounts, CommitTraversalProgress.tally_named]
  refine ⟨⟨⟨_, _, rfl⟩, hindexes⟩, hgrows, [_], by rw [hpublished], ?_⟩
  refine List.Forall₂.cons ⟨withHistory record, hstored, ?_⟩ List.Forall₂.nil
  rw [withHistory_node]
  exact (CommitTraversalProgress.tally_path
    { kind := some (state.store qt (withHistory record) previous).plan.request.target.kind }
    (state.store qt (withHistory record) previous).plan.records record.node.display).symm

/-! ## What the steps publish -/

theorem counted_of_same {state after : PreparationState σ} (hcounted : Counted state)
    (hrecords : after.plan.records = state.plan.records) (hindexes : after.indexes = state.indexes)
    (hcounts : after.counts = state.counts) : Counted after := by
  obtain ⟨hcounted, hvalid⟩ := hcounted
  constructor
  · rw [hcounts, hrecords]
    exact hcounted
  · rw [hindexes, hrecords]
    exact hvalid

/-- A step that stores nothing publishes nothing. -/
theorem publishes_of_same {state after : PreparationState σ} (hcounted : Counted state)
    (hrecords : after.plan.records = state.plan.records) (hindexes : after.indexes = state.indexes)
    (hcounts : after.counts = state.counts) (hpublished : after.published = state.published) :
    Publishes state after [] :=
  ⟨counted_of_same hcounted hrecords hindexes hcounts, by rw [hrecords], [],
    by rw [hpublished, List.append_nil], List.Forall₂.nil⟩

theorem discover_publishes {state : PreparationState σ} (hcounted : Counted state)
    (candidate : CommitNode) :
    Publishes state (state.discover qt source candidate)
      (state.discoverMoments qt source candidate) := by
  have hdiscovery := @discover_discovery qt σ source state candidate
  rw [discoverMoments]
  generalize state.discover qt source candidate = after at hdiscovery ⊢
  cases hdiscovery with
  | skipped hskip =>
      rw [if_pos rfl]
      exact publishes_of_same hcounted rfl rfl rfl rfl
  | kept hfresh hinspect =>
      rw [if_pos rfl]
      exact publishes_of_same hcounted rfl rfl rfl rfl
  | stopped hinspect hstop =>
      rw [if_pos rfl]
      exact publishes_of_same hcounted rfl rfl rfl rfl
  | @recorded after record hfresh hrecord =>
      have hpublishes : Publishes state (state.publishing qt after candidate record)
          [⟨(state.publishing qt after candidate record).plan,
            (state.indexOf qt candidate).getD state.plan.records.length⟩] := by
        obtain ⟨hafter, hgrows, values, hvalues, hshown⟩ := @remember_publishes σ qt
          { state with
            source := after
            visited := record.node.identity qt :: candidate.identity qt :: state.visited }
          (counted_of_same hcounted rfl rfl rfl) record (state.indexOf qt candidate)
          (hcounted.indexes (candidate.identity qt))
        exact ⟨hafter, hgrows, values, hvalues, hshown⟩
      obtain ⟨values, hvalues, hshown⟩ := hpublishes.published
      rw [if_neg]
      · exact hpublishes
      · rw [hvalues, List.length_append, hshown.length_eq, List.length_singleton]
        exact Nat.succ_ne_self _

theorem published_publishes {state : PreparationState σ} (hcounted : Counted state)
    (nodes : List CommitNode) :
    Publishes state (nodes.foldl (discover qt source) state)
      (publishedMoments qt source state nodes) := by
  induction nodes generalizing state with
  | nil => exact Publishes.refl hcounted
  | cons candidate rest ih =>
      have hfirst := @discover_publishes σ qt source state hcounted candidate
      exact hfirst.trans (ih hfirst.counted)

theorem examine_publishes {state : PreparationState σ} (hcounted : Counted state)
    (target candidate : CommitNode) :
    Publishes state (state.examine qt source target candidate).2
      (state.examineMoments qt source target candidate) := by
  rw [examine, examineMoments]
  cases (source.inspect candidate state.source).1 with
  | error thrown => exact publishes_of_same hcounted rfl rfl rfl rfl
  | ok seen? =>
      cases seen? with
      | none => exact publishes_of_same hcounted rfl rfl rfl rfl
      | some node =>
          dsimp only
          by_cases hskip : (!node.skippedReason.isEmpty) = true
          · rw [if_pos hskip, if_pos hskip]
            exact publishes_of_same hcounted (noteTarget_records target node state.plan) rfl rfl rfl
          · rw [if_neg hskip, if_neg hskip, (readNode_spec _ _ _).2.2]
            have hcounted' := @counted_of_same σ state { state with
                visited := node.identity qt :: candidate.identity qt :: state.visited
                plan := noteTarget qt target node state.plan
                source := (source.read node (source.inspect candidate state.source).2).2
                reads := state.reads ++ [node] }
              hcounted (noteTarget_records target node state.plan) rfl rfl
            obtain ⟨hafter, hgrows, hpublished⟩ := @published_publishes σ qt source _ hcounted'
              (source.read node (source.inspect candidate state.source).2).1.published
            refine ⟨hafter, ?_, hpublished⟩
            rw [noteTarget_records] at hgrows
            exact hgrows

theorem visit_publishes {state : PreparationState σ} (hcounted : Counted state)
    (target candidate : CommitNode) :
    Publishes state (state.visit qt source target candidate)
      (state.visitMoments qt source target candidate) := by
  rw [visitMoments, visit]
  by_cases hguard : (state.visited.contains (candidate.identity qt) ||
      state.finished qt candidate) = true
  · rw [if_pos hguard, if_pos hguard]
    exact Publishes.refl hcounted
  · rw [if_neg hguard, if_neg hguard]
    have hexamined := @examine_publishes σ qt source state hcounted target candidate
    dsimp only
    by_cases hstop : source.stopRequested
        (state.examine qt source target candidate).2.source = true
    · rw [if_pos hstop, if_pos hstop, List.append_nil]
      exact hexamined
    · rw [if_neg hstop, if_neg hstop]
      refine hexamined.trans (remember_publishes hexamined.counted fun index hindex => ?_)
      exact Nat.lt_of_lt_of_le (hcounted.indexes (candidate.identity qt) index hindex)
        hexamined.grows

theorem rounds_publishes {state : PreparationState σ} (hcounted : Counted state)
    (target : CommitNode) (count : ℕ) :
    Publishes state (rounds qt source target count state)
      (roundMoments qt source target count state) := by
  induction count generalizing state with
  | zero => exact Publishes.refl hcounted
  | succ count ih =>
      rw [rounds, roundMoments]
      cases state.pending with
      | nil => exact Publishes.refl hcounted
      | cons candidate rest =>
          dsimp only
          split_ifs
          · exact Publishes.refl hcounted
          · have htaken := @counted_of_same σ state { state with pending := rest } hcounted rfl rfl
              rfl
            obtain ⟨hafter, hgrows, hpublished⟩ :=
              @visit_publishes σ qt source _ htaken target candidate
            have hvisited : Publishes state
                ({ state with pending := rest }.visit qt source target candidate)
                ({ state with pending := rest }.visitMoments qt source target candidate) :=
              ⟨hafter, hgrows, hpublished⟩
            exact hvisited.trans (ih hafter)

theorem insertIndex_valid {entries : List (CommitTraversalRecord × ℕ)}
    {indexes : Text → Option ℕ} {bound : ℕ} (hentries : ∀ entry ∈ entries, entry.2 < bound)
    (hindexes : ∀ identity index, indexes identity = some index → index < bound) :
    ∀ identity index, entries.foldl (insertIndex qt) indexes identity = some index →
      index < bound := by
  induction entries generalizing indexes with
  | nil => exact hindexes
  | cons entry rest ih =>
      apply ih fun other hother => hentries other (List.mem_cons_of_mem entry hother)
      intro identity index hindex
      rw [insertIndex, Function.update_apply] at hindex
      split_ifs at hindex
      · injection hindex with hindex
        rw [← hindex]
        exact hentries entry List.mem_cons_self
      · exact hindexes identity index hindex

theorem start_counted (request : CommitRequest) (plan : CommitPlan) (state : σ) :
    Counted (start qt request plan state) := by
  refine ⟨⟨[], some request.target.kind, rfl⟩, ?_⟩
  apply insertIndex_valid
  · intro entry hentry
    obtain ⟨hindex, -⟩ := List.mem_zipIdx' hentry
    exact hindex
  · intro identity index hindex
    cases hindex

end PreparationState

/-- Whatever an earlier preparation has left in a plan and however a source answers: each
progress value is the progress of the plan at that moment, with the path of the record that
was stored in front of it. -/
theorem published_progress (qt : Qt) {σ : Type*} (source : TraversalSource σ)
    (request : CommitRequest) (plan : CommitPlan) (state : σ) :
    let start := PreparationState.start qt request plan state
    (∀ count, List.Forall₂ PublishedMoment.Shows
      (PreparationState.rounds qt source request.target count start).published
      (PreparationState.roundMoments qt source request.target count start)) ∧
      ∀ fuel prepared, prepareCommit qt source fuel request plan state = some prepared →
        prepared.published =
          (PreparationState.rounds qt source request.target fuel start).published := by
  intro start
  refine ⟨fun count => ?_, fun fuel prepared hprepared => ?_⟩
  · obtain ⟨-, -, values, hvalues, hshown⟩ := PreparationState.rounds_publishes
      (PreparationState.start_counted request plan state) request.target count
    rw [hvalues]
    exact hshown
  · rw [prepareCommit, Option.map_eq_some_iff] at hprepared
    obtain ⟨final, hfinal, rfl⟩ := hprepared
    rw [PreparationState.drain_eq_rounds qt source request.target hfinal]

namespace RetriedFolder

/-- The plan in which the inspection of the file has failed. -/
def failedPlan : CommitPlan :=
  ((prepareCommit Qt.ascii source 2 request { request := request } false).map (·.plan)).getD
    { request := request }

/-- The preparation that replaces the failed record. -/
def retried : Preparation :=
  (prepareCommit Qt.ascii source 2 request failedPlan true).getD
    { plan := failedPlan, published := [], reads := [] }

theorem published_progress_retried :
    let start := PreparationState.start Qt.ascii request failedPlan true
    retried.published.length = 1 ∧
      List.Forall₂ PublishedMoment.Shows retried.published
        (PreparationState.roundMoments Qt.ascii source request.target 2 start) := by
  intro start
  obtain ⟨hshown, hprepared⟩ := published_progress Qt.ascii source request failedPlan true
  have hretried : prepareCommit Qt.ascii source 2 request failedPlan true = some retried := by
    decide +kernel
  refine ⟨by decide +kernel, ?_⟩
  rw [hprepared 2 retried hretried]
  exact hshown 2

/-- What is published, each value with its moment. -/
def moments : List (CommitTraversalProgress × PublishedMoment) :=
  retried.published.zip (PreparationState.roundMoments Qt.ascii source request.target 2
    (PreparationState.start Qt.ascii request failedPlan true))

/-- A value names a record, which the progress of a plan does not. -/
theorem published_names_record :
    ∃ moment ∈ moments, moment.1 ≠ moment.2.plan.progress ∧
      moment.1 = { moment.2.plan.progress with path := file.display } := by
  decide +kernel

end RetriedFolder

end UwfManager
