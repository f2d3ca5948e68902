import UwfManager.Commit.CommitPreparation

/-!
# What a walk has seen

Whatever the source of a walk answers, a record that has succeeded holds a node
that an inspection of some node on the way has returned and that is not skipped.
What the inspections and reads keep of each node on the way is therefore known of
every such record.
-/

namespace UwfManager

variable {qt : Qt} {σ : Type*}

/-- A preparation together with the state that it leaves the source in. -/
def prepareCommitFrom (qt : Qt) (source : TraversalSource σ) (fuel : ℕ) (request : CommitRequest)
    (plan : CommitPlan) (state : σ) : Option (Preparation × σ) :=
  (PreparationState.drain qt source request.target fuel
    (PreparationState.start qt request plan state)).map fun final =>
      ({ plan := { final.plan with canceled := source.stopRequested final.source }
         published := final.published
         reads := final.reads }, final.source)

theorem prepareCommitFrom_fst (source : TraversalSource σ) (fuel : ℕ) (request : CommitRequest)
    (plan : CommitPlan) (state : σ) :
    (prepareCommitFrom qt source fuel request plan state).map Prod.fst =
      prepareCommit qt source fuel request plan state := by
  rw [prepareCommitFrom, prepareCommit, Option.map_map]
  rfl

/-- What holds of the nodes on the way: reads publish such nodes only, and an inspection of
one returns one, of which more is known if it is not skipped. -/
structure TraversalSource.Leads (source : TraversalSource σ) (onWay seen : CommitNode → Prop) :
    Prop where
  inspect : ∀ node state found, onWay node → (source.inspect node state).1 = .ok (some found) →
    onWay found ∧ (found.skippedReason = [] → seen found)
  read : ∀ node state, ∀ child ∈ (source.read node state).1.published, onWay child

namespace PreparationState

variable {source : TraversalSource σ} {onWay seen : CommitNode → Prop}
  {state : PreparationState σ}

/-- Records that have succeeded hold seen nodes, and what is pending is on the way. -/
structure Observed (onWay seen : CommitNode → Prop) (state : PreparationState σ) : Prop where
  pending : ∀ node ∈ state.pending, onWay node
  records : ∀ record ∈ state.plan.records, record.status = .succeeded → seen record.node

theorem remember_pending (record : CommitTraversalRecord) (previous : Option ℕ) :
    (state.remember qt record previous).pending = state.pending := by
  cases previous with
  | none => rfl
  | some index => rfl

theorem Observed.remember (hobserved : Observed onWay seen state)
    {record : CommitTraversalRecord} (hrecord : record.status = .succeeded → seen record.node)
    (previous : Option ℕ) : Observed onWay seen (state.remember qt record previous) := by
  refine ⟨by rw [remember_pending]; exact hobserved.pending, ?_⟩
  intro other hother hstatus
  rcases store_mem hother with rfl | hold
  · rw [withHistory_status] at hstatus
    rw [withHistory_node]
    exact hrecord hstatus
  · exact hobserved.records other hold hstatus

theorem statusOf_succeeded {node : CommitNode} (hstatus : CommitTree.statusOf node = .succeeded) :
    node.skippedReason = [] := by
  rw [CommitTree.statusOf] at hstatus
  split_ifs at hstatus with hskip
  exact List.isEmpty_iff.1 hskip

theorem discover_observed (hleads : source.Leads onWay seen)
    (hobserved : Observed onWay seen state) {candidate : CommitNode}
    (hcandidate : onWay candidate) :
    Observed onWay seen (state.discover qt source candidate) := by
  have hdiscovery := @discover_discovery qt σ source state candidate
  generalize state.discover qt source candidate = result at hdiscovery ⊢
  cases hdiscovery with
  | skipped hskip => exact hobserved
  | @kept node after hfresh hinspect =>
      refine ⟨?_, hobserved.records⟩
      intro other hother
      rcases List.mem_cons.1 hother with rfl | hold
      · exact (hleads.inspect _ _ _ hcandidate (congrArg Prod.fst hinspect)).1
      · exact hobserved.pending other hold
  | stopped hinspect hstop => exact ⟨hobserved.pending, hobserved.records⟩
  | @recorded after record hfresh hrecord =>
      rw [publishing]
      apply Observed.remember
      · exact ⟨hobserved.pending, hobserved.records⟩
      · intro hstatus
        cases hrecord with
        | failed error hinspect hanswer => cases hstatus
        | @seen node after hinspect hleaf =>
            exact (hleads.inspect _ _ _ hcandidate (congrArg Prod.fst hinspect)).2
              (statusOf_succeeded hstatus)

theorem foldl_discover_observed (hleads : source.Leads onWay seen) (nodes : List CommitNode)
    (hnodes : ∀ node ∈ nodes, onWay node) (hobserved : Observed onWay seen state) :
    Observed onWay seen (nodes.foldl (discover qt source) state) := by
  induction nodes generalizing state with
  | nil => exact hobserved
  | cons node rest ih =>
      exact ih (fun other hother => hnodes other (List.mem_cons_of_mem _ hother))
        (discover_observed hleads hobserved (hnodes node List.mem_cons_self))

theorem visit_observed (hleads : source.Leads onWay seen) (hobserved : Observed onWay seen state)
    {candidate : CommitNode} (hcandidate : onWay candidate) (target : CommitNode) :
    Observed onWay seen (state.visit qt source target candidate) := by
  have hexamined : ((state.examine qt source target candidate).1.status = .succeeded →
      seen (state.examine qt source target candidate).1.node) ∧
        Observed onWay seen (state.examine qt source target candidate).2 := by
    have hexamination := @examine_examination qt σ source target state candidate
    generalize state.examine qt source target candidate = result at hexamination ⊢
    cases hexamination with
    | failed error hinspect hanswer =>
        exact ⟨nofun, hobserved.pending, hobserved.records⟩
    | @skipped node after hinspect hskip =>
        refine ⟨nofun, hobserved.pending, ?_⟩
        intro record hrecord
        rw [noteTarget_records] at hrecord
        exact hobserved.records record hrecord
    | @read node after hinspect hskip =>
        obtain ⟨hnode, -, hwalked⟩ := @readNode_spec qt σ source
          { state with
            visited := node.identity qt :: candidate.identity qt :: state.visited
            plan := noteTarget qt target node state.plan
            source := after } node { state.attempt qt candidate with node := node }
        refine ⟨fun _ => ?_, ?_⟩
        · rw [hnode]
          exact (hleads.inspect _ _ _ hcandidate (congrArg Prod.fst hinspect)).2 hskip
        · rw [hwalked]
          apply foldl_discover_observed hleads _ (hleads.read node _)
          refine ⟨hobserved.pending, ?_⟩
          intro record hrecord
          rw [noteTarget_records] at hrecord
          exact hobserved.records record hrecord
  rw [visit]
  split_ifs with hskip
  · exact hobserved
  · dsimp only
    split_ifs with hstop
    · exact hexamined.2
    · exact hexamined.2.remember hexamined.1 _

theorem drain_observed (hleads : source.Leads onWay seen) (target : CommitNode) {fuel : ℕ}
    (hobserved : Observed onWay seen state) {final : PreparationState σ}
    (hfinal : state.drain qt source target fuel = some final) : Observed onWay seen final := by
  induction fuel generalizing state with
  | zero =>
      rw [drain] at hfinal
      split_ifs at hfinal
      cases hfinal
      exact hobserved
  | succ fuel ih =>
      rw [drain] at hfinal
      cases hnodes : state.pending with
      | nil =>
          rw [hnodes] at hfinal
          cases hfinal
          exact hobserved
      | cons candidate rest =>
          rw [hnodes] at hfinal
          dsimp only at hfinal
          have hpending := hobserved.pending
          rw [hnodes] at hpending
          split_ifs at hfinal
          · cases hfinal
            exact hobserved
          · have hrest : Observed onWay seen { state with pending := rest } :=
              ⟨fun node hnode => hpending node (List.mem_cons_of_mem _ hnode), hobserved.records⟩
            exact ih (visit_observed hleads hrest (hpending candidate List.mem_cons_self) target)
              hfinal

end PreparationState

/-- A preparation from nothing holds what its source leads to. -/
theorem prepareCommitFrom_observed {source : TraversalSource σ} {onWay seen : CommitNode → Prop}
    (hleads : source.Leads onWay seen) {fuel : ℕ} {request : CommitRequest}
    (htarget : onWay request.target) {state : σ} {prepared : Preparation × σ}
    (hprepared : prepareCommitFrom qt source fuel request { request := request } state =
      some prepared) :
    ∀ record ∈ prepared.1.plan.records, record.status = .succeeded → seen record.node := by
  obtain ⟨final, hfinal, rfl⟩ := Option.map_eq_some_iff.1 hprepared
  have hstart : PreparationState.Observed onWay seen
      (PreparationState.start qt request { request := request } state) := by
    refine ⟨?_, fun record hrecord => absurd hrecord List.not_mem_nil⟩
    intro node hnode
    rw [List.mem_singleton.1 hnode]
    exact htarget
  exact (PreparationState.drain_observed hleads request.target hstart hfinal).records

end UwfManager
