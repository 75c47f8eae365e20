import DualAscent.Proofs.Batch.Place
import DualAscent.Proofs.Operation.Recorded
import DualAscent.Proofs.Solver.Standing

/-!
# What the answers of a batch depend on

Every operation binds all costs that it works on before it asks a solver for anything else.  Its
answer depends therefore on the frozen sizes and the standing of the solvers alone; that of a
replay also on the lengths of their latest runs.
-/

namespace DualAscent

open Procedure Batch

variable {α β : Type}

/-- The frozen sizes and the standing of every solver. -/
abbrev Batch.standings : Batch (Solver α) → List (Sizes × Standing) := views Solver.standing

namespace Batch

variable {b b' : Batch (Solver α)}

theorem total_of_views {τ : Type} {view : Solver α → τ} (same : views view b = views view b')
    (kind : Segmentation) : b.total kind = b'.total kind := by
  rw [total, total, sizes_of_views same]

section Engine

variable [Scalar α] [Zero α] [Add α] [Sub α] [Mul α] [Neg α]

theorem ensureStable_of_standings (same : standings b = standings b') :
    b.ensureStable = b'.ensureStable := by
  have seen : ∀ b : Batch (Solver α),
      (b.members.findIdx? fun member => Engine.sizes member.solver ≠ member.frozen) =
        (standings b).findIdx? fun entry => entry.2.diagrams.sizes ≠ entry.1 := by
    intro b
    rw [standings, views, List.findIdx?_map]
    rfl
  rw [ensureStable, ensureStable, seen b, seen b', same]

theorem ensureMatches_of_standings (same : standings b = standings b') (recorded : List Sizes) :
    b.ensureMatches recorded = b'.ensureMatches recorded := by
  rw [ensureMatches, ensureMatches, length, length, length_of_views same, sizes_of_views same,
    ensureStable_of_standings same]

theorem agrees_resolve (kind : Segmentation) (length : Nat) :
    Agrees standings standings (resolve kind length : Work α (Solver α) Layout) := by
  refine .read_bind (fun b b' same => ?_) fun b => (Agrees.lift _).bind fun _ =>
    (Agrees.lift _).bind fun _ => (Agrees.log _).bind fun _ => .pure _
  rw [ensureStable_of_standings same, sizes_of_views same]

end Engine

end Batch

namespace Operation

variable [Scalar α] [Zero α] [Add α] [Sub α] [Mul α] [Neg α]

theorem agrees_setCosts (i : Nat) (context : Context α) (costs : Costs (Array α)) :
    Agrees Solver.standing Solver.unrun
      (attempt i context (.setCosts costs) : Procedure _ (Solver α) _ Unit) :=
  agrees_attempt (Solver.agrees_setCosts costs) i context

theorem agrees_request {request : Request α β} (ahead : request.routine.replays = false) (i : Nat)
    (context : Context α) :
    Agrees Solver.unrun Solver.unrun
      (attempt i context request : Procedure _ (Solver α) _ β) :=
  agrees_attempt (Solver.agrees_serve ahead) i context

theorem agrees_ascend (inputs : Inputs α (Buffer α)) (settings : AscentSettings α) :
    Agrees standings unseen (ascend inputs settings : Work α (Solver α) _) := by
  refine (Agrees.lift _).bind fun inputs => (agrees_resolve _ _).bind fun layers =>
    .read_bind (fun b b' same => ?_) fun b => (agrees_resolve _ _).bind fun bdds =>
      Agrees.bind ?_ fun _ => (Agrees.log _).bind fun _ => .pure _
  · simp only [total_of_views same, sizes_of_views same]
  refine agrees_visit Solver.unrun (fun i share => (Agrees.log _).bind fun _ => ?_) _
  exact (agrees_setCosts i _ _).bind fun _ => (agrees_request rfl i _).bind fun _ =>
    (agrees_request rfl i _).bind fun _ => .pure _

theorem agrees_redistribute (costs : Costs (Buffer α)) :
    Agrees standings unseen (redistribute costs : Work α (Solver α) _) := by
  refine (Agrees.lift _).bind fun costs => (Agrees.lift _).bind fun _ =>
    (agrees_resolve _ _).bind fun layers => .read_bind (fun b b' same => ?_) fun b =>
      Agrees.bind ?_ fun _ => .pure _
  · rw [sizes_of_views same]
  refine agrees_visit Solver.unrun (fun i layers => (Agrees.log _).bind fun _ => ?_) _
  exact (agrees_setCosts i _ _).bind fun _ => (agrees_request rfl i _).bind fun _ =>
    agrees_request rfl i _

theorem agrees_minMarginals (branches : Branches (Buffer α)) :
    Agrees standings unseen (minMarginals branches : Work α (Solver α) _) := by
  refine (Agrees.lift _).bind fun branches => (agrees_resolve _ _).bind fun layers =>
    .read_bind (fun b b' same => ?_) fun b => Agrees.bind ?_ fun _ => .pure _
  · rw [sizes_of_views same]
  refine agrees_visit Solver.unrun (fun i layers => (Agrees.log _).bind fun _ => ?_) _
  exact (agrees_setCosts i _ _).bind fun _ => agrees_request rfl i _

theorem agrees_perturb (inputs : Perturbed (Buffer α)) :
    Agrees standings unseen (perturb inputs : Work α (Solver α) _) := by
  refine (Agrees.lift _).bind fun inputs => (agrees_resolve _ _).bind fun layers =>
    (agrees_resolve _ _).bind fun slots => .read_bind (fun b b' same => ?_) fun b =>
      Agrees.bind ?_ fun _ => .pure _
  · rw [sizes_of_views same]
  refine agrees_visit Solver.unrun (fun i share => (Agrees.log _).bind fun _ => ?_) _
  exact (agrees_setCosts i _ _).bind fun _ => (agrees_request rfl i _).bind fun _ =>
    (agrees_request rfl i _).bind fun _ => .pure _

theorem agrees_lowerBounds (branches : Branches (Buffer α)) :
    Agrees standings unseen (lowerBounds branches : Work α (Solver α) _) := by
  refine (Agrees.lift _).bind fun branches => (agrees_resolve _ _).bind fun layers =>
    .read_bind (fun b b' same => ?_) fun b => (agrees_resolve _ _).bind fun bdds =>
      Agrees.bind ?_ fun _ => .pure _
  · rw [total_of_views same, sizes_of_views same]
  refine agrees_visit Solver.unrun (fun i share => (Agrees.log _).bind fun _ => ?_) _
  exact (agrees_setCosts i _ _).bind fun _ => agrees_request rfl i _

theorem agrees_round (costs : Costs (Buffer α)) (settings : RoundingSettings α) :
    Agrees standings unseen (round costs settings : Work α (Solver α) _) := by
  refine (Agrees.lift _).bind fun costs => (Agrees.lift _).bind fun _ =>
    (agrees_resolve _ _).bind fun layers => Agrees.bind ?_ fun _ =>
      (Agrees.log _).bind fun _ => .pure _
  refine agrees_visit Solver.unrun (fun i layers => (Agrees.log _).bind fun _ => ?_) _
  exact (agrees_setCosts i _ _).bind fun _ => agrees_request rfl i _

theorem agrees_solution (branches : Branches (Buffer α)) :
    Agrees standings unseen (solution branches : Work α (Solver α) _) := by
  refine (Agrees.lift _).bind fun branches => (agrees_resolve _ _).bind fun layers =>
    Agrees.bind ?_ fun _ => .pure _
  refine agrees_visit Solver.unrun (fun i layers => ?_) _
  exact (agrees_setCosts i _ _).bind fun _ => agrees_request rfl i _

theorem agrees_redistributeBackward (record : Saved (Costs (Array α)))
    (gradients : OutputGradients α) :
    Agrees standings unseen (redistributeBackward record gradients : Work α (Solver α) _) := by
  refine .read_bind (fun b b' same => ?_) fun b => (Agrees.lift _).bind fun _ =>
    (Agrees.lift _).bind fun outer => (Agrees.lift _).bind fun _ => Agrees.bind ?_ fun _ =>
      (Agrees.lift _).bind fun _ => .pure _
  · rw [ensureMatches_of_standings same]
  refine agrees_visit Solver.unrun (fun i layers => ?_) _
  exact (agrees_setCosts i _ _).bind fun _ => agrees_request rfl i _

theorem agrees_minMarginalsBackward (record : Saved (Branches (Array α)))
    (gradients : OutputGradients α) :
    Agrees standings unseen (minMarginalsBackward record gradients : Work α (Solver α) _) := by
  refine .read_bind (fun b b' same => ?_) fun b => (Agrees.lift _).bind fun _ =>
    (Agrees.lift _).bind fun outer => (Agrees.lift _).bind fun _ => Agrees.bind ?_ fun _ =>
      (Agrees.lift _).bind fun _ => .pure _
  · rw [ensureMatches_of_standings same]
  refine agrees_visit Solver.unrun (fun i layers => ?_) _
  exact (agrees_setCosts i _ _).bind fun _ => agrees_request rfl i _

theorem agrees_perturbBackward (record : Saved (Perturbed (Array α)))
    (gradients : OutputGradients α) :
    Agrees standings unseen (perturbBackward record gradients : Work α (Solver α) _) := by
  refine .read_bind (fun b b' same => ?_) fun b => (Agrees.lift _).bind fun _ =>
    (Agrees.lift _).bind fun outer => (Agrees.lift _).bind fun _ => (Agrees.lift _).bind fun _ =>
      Agrees.bind ?_ fun _ => (Agrees.lift _).bind fun _ => .pure _
  · rw [ensureMatches_of_standings same]
  refine agrees_visit Solver.unrun (fun i share => ?_) _
  exact (agrees_setCosts i _ _).bind fun _ => agrees_request rfl i _

theorem agrees_lowerBoundsBackward (record : Saved (Branches (Array α)))
    (gradients : OutputGradients α) :
    Agrees standings unseen (lowerBoundsBackward record gradients : Work α (Solver α) _) := by
  refine .read_bind (fun b b' same => ?_) fun b => (Agrees.lift _).bind fun _ =>
    (Agrees.lift _).bind fun _ => (Agrees.lift _).bind fun outer => Agrees.bind ?_ fun _ =>
      (Agrees.lift _).bind fun _ => .pure _
  · rw [ensureMatches_of_standings same]
  refine agrees_visit Solver.unrun (fun i share => ?_) _
  exact (agrees_setCosts i _ _).bind fun _ => agrees_request rfl i _

omit [Scalar α] [Zero α] [Add α] [Sub α] [Mul α] [Neg α] in
theorem agrees_logGradients {σ τ : Type} {view : σ → τ} (i : Nat)
    (named : List (String × Array α)) : Agrees view view (logGradients i named) := by
  induction named with
  | nil => exact .pure ()
  | cons pair named ih => exact (Agrees.log _).bind fun _ => ih

omit [Scalar α] [Zero α] [Add α] [Sub α] [Mul α] [Neg α] in
theorem fixes_logGradients {σ τ : Type} {view : σ → τ} (i : Nat)
    (named : List (String × Array α)) : Fixes view (logGradients i named) :=
  fun s => congrArg view (yields_logGradients i named s).state

theorem agrees_descendOne (record : AscentRecord α) (outer : Costs (Array α)) (i : Nat)
    (layers : Span) (window : ReplayWindow) (carried : α) :
    Agrees (fun s : Solver α => (s.standing, s.latest)) Solver.unrun
      (descendOne record outer i layers window carried) :=
  (Agrees.log _).bind fun _ =>
    ((agrees_setCosts i _ _).prod (fixes_request (fun _ _ => rfl) rfl i _)).bind fun _ =>
      (agrees_logGradients i _).bind fun _ =>
        (agrees_attempt (Solver.agrees_iterateBackward _ _ _ _ _) i _).bind fun _ =>
          (agrees_logGradients i _).bind fun _ => .pure _

/-- The standing of every solver, and the latest runs of as many of them as have one on record. -/
def awaited (record : AscentRecord α) (b : Batch (Solver α)) : List (Sizes × Standing) × List Nat :=
  (standings b, (b.members.map (·.solver.latest)).take record.realized.length)

theorem agrees_ascendBackward (record : AscentRecord α) (gradients : OutputGradients α) :
    Agrees (awaited record) unseen (ascendBackward record gradients) := by
  have visits : ∀ (layers : List Span) (outer : Costs (Array α)),
      Agrees (awaited record) unseen
        (visitCarrying 0 (layers.zip (record.realized.map (ReplayWindow.ofRun · record.tracked)))
          (descendShare record outer)) := by
    intro layers outer b b' same
    have standing : standings b = standings b' := congrArg Prod.fst same
    refine ⟨result_walk_congr _ (length_of_views standing) 0 0
      fun i share carried member member' share_i found found' => ?_, fun _ _ => rfl⟩
    have within : i < record.realized.length := by
      have bound := (List.getElem?_eq_some_iff.mp share_i).1
      rw [List.length_zip, List.length_map] at bound
      omega
    have runs := congrArg (fun seen => seen.2[i]?) same
    simp only [awaited, List.getElem?_take, if_pos within, List.getElem?_map, found, found',
      Option.map_some, Option.some.injEq] at runs
    exact (agrees_descendOne record outer (0 + i) share.1 share.2 carried
      (Prod.ext (view_of_views standing found found') runs)).result
  refine .read_bind (fun b b' same => ?_) fun b => (Agrees.lift _).bind fun _ =>
    (Agrees.lift _).bind fun branches => (Agrees.lift _).bind fun deferred => ?_
  · rw [ensureMatches_of_standings (congrArg Prod.fst same)]
  dsimp only
  split
  · exact (Agrees.log _).bind fun _ => (Agrees.lift _).bind fun _ =>
      (visits _ ⟨branches, deferred⟩).bind fun _ => (Agrees.lift _).bind fun _ => .pure _
  · exact (Agrees.lift _).bind fun _ =>
      (visits _ ⟨branches, deferred⟩).bind fun _ => (Agrees.lift _).bind fun _ => .pure _

/-- The latest runs of the solvers are those on record, so that each of them accepts its replay. -/
def PassesReplay (b : Batch (Solver α)) (record : AscentRecord α) : Prop :=
  ∀ (i : Nat) (member : Member (Solver α)) (run : Nat), b.members[i]? = some member →
    record.realized[i]? = some run → member.solver.latest = run

omit [Scalar α] [Zero α] [Add α] [Sub α] [Mul α] [Neg α] in
theorem PassesReplay.take_latest {b : Batch (Solver α)} {record : AscentRecord α}
    (passes : PassesReplay b record) :
    (b.members.map (·.solver.latest)).take record.realized.length =
      record.realized.take b.members.length := by
  refine List.ext_getElem (by simp [Nat.min_comm]) fun i here there => ?_
  have within : i < b.members.length ∧ i < record.realized.length := by
    rw [List.length_take] at there
    omega
  rw [List.getElem_take, List.getElem_take, List.getElem_map]
  exact passes i _ _ (List.getElem?_eq_getElem within.1) (List.getElem?_eq_getElem within.2)

omit [Scalar α] [Zero α] [Add α] [Sub α] [Mul α] [Neg α] in
/-- Solvers that accept their replays show nothing else of their runs. -/
theorem awaited_of_passes {b b' : Batch (Solver α)} (same : standings b = standings b')
    {record : AscentRecord α} (passes : PassesReplay b record) (passes' : PassesReplay b' record) :
    awaited record b = awaited record b' := by
  refine Prod.ext same ?_
  show List.take _ _ = List.take _ _
  rw [passes.take_latest, passes'.take_latest, length_of_views same]

theorem latest_of_descendOne {record : AscentRecord α} {outer : Costs (Array α)} {i : Nat}
    {layers : Span} {window : ReplayWindow} {carried : α} {s : Solver α}
    {outcome : α × Inputs α (Array α)}
    (ok : ((descendOne record outer i layers window carried).run s).result = .ok outcome) :
    s.latest = window.total := by
  rw [descendOne, descendWith, run_log_bind] at ok
  obtain ⟨_, -, ok⟩ := result_bind_eq_ok_iff.mp ok
  obtain ⟨_, -, ok⟩ := result_bind_eq_ok_iff.mp ok
  obtain ⟨swept, replayed, -⟩ := result_bind_eq_ok_iff.mp ok
  rw [(yields_logGradients i _ _).state, result_attempt_eq_ok_iff] at replayed
  have stays : Fixes Solver.latest (attempt i (.replay window)
      (.setCosts (record.inputs.map layers.slice).costs) : Procedure _ (Solver α) _ Unit) :=
    fixes_request (fun _ _ => rfl) rfl i _
  exact (stays s).symm.trans (Solver.latest_of_iterateBackward replayed)

theorem intact_of_descendOne {record : AscentRecord α} {outer : Costs (Array α)} {i : Nat}
    {layers : Span} {window : ReplayWindow} {carried : α} {s : Solver α}
    {outcome : α × Inputs α (Array α)}
    (ok : ((descendOne record outer i layers window carried).run s).result = .ok outcome) :
    s.intact = true := by
  rw [descendOne, descendWith, run_log_bind] at ok
  obtain ⟨_, binding, -⟩ := result_bind_eq_ok_iff.mp ok
  exact Solver.intact_of_setCosts (result_attempt_eq_ok_iff.mp binding)

/-- In a backward pass that is answered every solver sweeps back through a recorded run. -/
structure Swept (b : Batch (Solver α)) (record : AscentRecord α) : Prop where
  sizes : b.sizes = record.sizes
  stable : b.Stable
  each : ∀ (i : Nat) (member : Member (Solver α)) (run : Nat), b.members[i]? = some member →
    record.realized[i]? = some run → ∃ outer layers carried part,
      ((descendOne record outer i layers (.ofRun run record.tracked) carried).run
        member.solver).result = .ok part

theorem swept_of_ok {b : Batch (Solver α)} {record : AscentRecord α}
    {gradients : OutputGradients α} {gradient : Inputs α (Array α)}
    (ok : ((ascendBackward record gradients).run b).result = .ok gradient) : Swept b record := by
  obtain ⟨outer, last, parts, descended⟩ := descended_of_ok ok
  obtain ⟨same, stable⟩ := ensureMatches_eq_ok_iff.mp descended.matched
  refine ⟨same, stable, fun i member run found recorded => ?_⟩
  have within : i < (Layout.ofSizes .layer record.sizes).spans.length := by
    rw [Layout.spans_ofSizes, List.length_mapIdx, ← same, sizes, List.length_map]
    exact (List.getElem?_eq_some_iff.mp found).1
  have share : ((Layout.ofSizes .layer record.sizes).spans.zip
      (record.realized.map (ReplayWindow.ofRun · record.tracked)))[i]? =
        some ((Layout.ofSizes .layer record.sizes).spans[i], .ofRun run record.tracked) := by
    rw [List.getElem?_zip_eq_some]
    exact ⟨List.getElem?_eq_getElem within, by rw [List.getElem?_map, recorded]; rfl⟩
  obtain ⟨carried, part, answered⟩ := ok_of_walk descended.walked share found
  rw [Nat.zero_add] at answered
  exact ⟨_, _, carried, part, answered⟩

/-- Only a batch whose solvers accept their replays gives an answer. -/
theorem passesReplay_of_ok {b : Batch (Solver α)} {record : AscentRecord α}
    {gradients : OutputGradients α} {gradient : Inputs α (Array α)}
    (ok : ((ascendBackward record gradients).run b).result = .ok gradient) :
    PassesReplay b record := by
  intro i member run found recorded
  obtain ⟨_, _, _, _, answered⟩ := (swept_of_ok ok).each i member run found recorded
  exact (latest_of_descendOne answered).trans (ReplayWindow.total_ofRun run record.tracked)

/-- A record that some batch has left is answered only where it is awaited. -/
theorem Belongs.awaits_of_ok {b b' : Batch (Solver α)} {record : AscentRecord α}
    (belongs : Belongs b record) {gradients : OutputGradients α} {gradient : Inputs α (Array α)}
    (ok : ((ascendBackward record gradients).run b').result = .ok gradient) : Awaits b' record := by
  have swept := swept_of_ok ok
  have sizes_eq : b'.sizes = b.sizes := swept.sizes.trans belongs.sizes.symm
  have length_eq : b'.members.length = record.realized.length := by
    have lengths := congrArg List.length sizes_eq
    rw [Batch.sizes, Batch.sizes, List.length_map, List.length_map] at lengths
    rw [belongs.runs, lengths]
  refine ⟨swept.sizes, swept.stable, fun member inside => ?_, ?_, ?_⟩
  · obtain ⟨i, within, rfl⟩ := List.mem_iff_getElem.mp inside
    obtain ⟨_, _, _, _, answered⟩ := swept.each i _ _ (List.getElem?_eq_getElem within)
      (List.getElem?_eq_getElem (length_eq ▸ within))
    exact intact_of_descendOne answered
  · rw [b'.total_eq_sum, sizes_eq, ← b.total_eq_sum]
    exact belongs.inputs
  · refine List.ext_getElem ((List.length_map _).trans length_eq) fun i here there => ?_
    rw [List.getElem_map]
    rw [List.length_map] at here
    exact passesReplay_of_ok ok i _ _ (List.getElem?_eq_getElem here)
      (List.getElem?_eq_getElem there)

/-- A dual ascent that is answered leaves solvers that accept its replay. -/
theorem passesReplay_of_ascend {inputs : Inputs α (Buffer α)} {settings : AscentSettings α}
    {b : Batch (Solver α)} {ascended : Ascended α} {record : AscentRecord α}
    (ok : ((ascend inputs settings).run b).result = .ok (ascended, record)) :
    PassesReplay ((ascend inputs settings).run b).state record := by
  rcases ascend_cases inputs settings b with
    ⟨-, e, refused⟩ | ⟨cause, broken⟩ | ⟨_, _, answered, -, runs⟩
  · cases refused.symm.trans ok
  · cases broken.symm.trans ok
  · cases answered.symm.trans ok
    intro i member run found recorded
    have entry := congrArg (fun entries => entries[i]?) runs
    simp only [ledgers, views, entered, List.getElem?_map, List.getElem?_zipWith, found, recorded,
      Option.map_some] at entry
    cases there : b.members[i]? with
    | none =>
        rw [there] at entry
        cases entry
    | some before =>
        rw [there] at entry
        have same := congrArg (·.2.pending) (Option.some.inj entry)
        exact congrArg (·.head?.getD 0) same

theorem fixes_ascend (inputs : Inputs α (Buffer α)) (settings : AscentSettings α) :
    Fixes (views Solver.make) (ascend inputs settings : Work α (Solver α) _) := by
  refine (Fixes.lift _).bind fun inputs => (fixes_resolve _ _).bind fun layers =>
    Fixes.read.bind fun b => (fixes_resolve _ _).bind fun bdds => Fixes.bind ?_ fun _ =>
      (Fixes.log _).bind fun _ => .pure _
  refine fixes_visit (fun i share => (Fixes.log _).bind fun _ => ?_) _
  exact (fixes_request (fun _ _ => rfl) rfl i _).bind fun _ =>
    (fixes_attempt (Solver.fixes_make_iterate _ _ _ _ _) i _).bind fun _ =>
      (fixes_request (fun _ _ => rfl) rfl i _).bind fun _ => .pure _

theorem fixes_ascendBackward (record : AscentRecord α) (gradients : OutputGradients α) :
    Fixes standings (ascendBackward record gradients : Work α (Solver α) _) := by
  have visits : ∀ (shares : List (Span × ReplayWindow)) (outer : Costs (Array α)),
      Fixes standings (visitCarrying 0 shares (descendShare record outer)) := by
    intro shares outer
    refine fixes_visitCarrying (fun i share carried => (Fixes.log _).bind fun _ => ?_) 0 shares
    exact (fixes_request (fun _ _ => rfl) rfl i _).bind fun _ =>
      (fixes_logGradients i _).bind fun _ =>
        (fixes_attempt (Solver.fixes_standing_iterateBackward _ _ _ _ _) i _).bind fun _ =>
          (fixes_logGradients i _).bind fun _ => .pure _
  refine Fixes.read.bind fun b => (Fixes.lift _).bind fun _ => (Fixes.lift _).bind fun branches =>
    (Fixes.lift _).bind fun deferred => ?_
  dsimp only
  split
  · exact (Fixes.log _).bind fun _ => (Fixes.lift _).bind fun _ =>
      (visits _ ⟨branches, deferred⟩).bind fun _ => (Fixes.lift _).bind fun _ => .pure _
  · exact (Fixes.lift _).bind fun _ =>
      (visits _ ⟨branches, deferred⟩).bind fun _ => (Fixes.lift _).bind fun _ => .pure _

omit [Scalar α] [Zero α] [Add α] [Sub α] [Mul α] [Neg α] in
theorem standings_of_frames {b b' : Batch (Solver α)}
    (makes : views Solver.make b' = views Solver.make b)
    (frames : (ledgers b').map frame = (ledgers b).map frame) : standings b' = standings b := by
  have seen : ∀ b : Batch (Solver α), standings b = List.zipWith
      (fun entry framed => (entry.1, Standing.mk entry.2 framed.2.2)) (views Solver.make b)
        ((ledgers b).map frame) := by
    intro b
    simp only [standings, ledgers, views, List.map_map, List.zipWith_map, List.zipWith_self]
    rfl
  rw [seen, seen, makes, frames]

/-- A dual ascent that does not break off leaves every solver in its standing. -/
theorem standings_ascend {inputs : Inputs α (Buffer α)} {settings : AscentSettings α}
    {b : Batch (Solver α)}
    (returns : ∀ cause, ((ascend inputs settings).run b).result ≠ .error (.misuse cause)) :
    standings ((ascend inputs settings).run b).state = standings b := by
  rcases ascend_cases inputs settings b with
    ⟨state, -⟩ | ⟨cause, broken⟩ | ⟨_, record, -, belongs, runs⟩
  · rw [state]
  · exact absurd broken (returns cause)
  · refine standings_of_frames (fixes_ascend inputs settings b) ?_
    rw [runs]
    exact map_frame_entered (belongs.runs.trans (List.length_map _).symm)

end Operation

end DualAscent
