import DualAscent.Proofs.Operation.Recorded
import DualAscent.Proofs.Solver.Requests

/-!
# Work that suits a solver

What an operation asks of one solver suits it if the arrays are long enough for the solver's
segments and these have the lengths that the solver expects.  The work then fails for no other
reasons than requests that suit do, and leaves the standing of the solver as it is if it succeeds.
-/

namespace DualAscent

open Procedure Batch

variable {α β γ : Type}

/-- On solvers of this standing the procedure keeps it, and fails for a violated precondition only
if it is not able to succeed, and for an engine only in the ways allowed. -/
def Excused (known : Standing) (able : Prop) (allowed : EngineError → Prop)
    (work : Procedure (Event α) (Solver α) (Error α) β) : Prop :=
  ∀ s, s.standing = known →
    (∀ value, (work.run s).result = .ok value → (work.run s).state.standing = known) ∧
    ∀ e, (work.run s).result = .error e → (∃ cause, e = .misuse cause) ∧ ¬able ∨
      ∃ i routine context source, e = .engine i routine context source ∧ allowed source

namespace Excused

variable {known : Standing} {able : Prop} {allowed : EngineError → Prop}

theorem of_yields {work : Procedure (Event α) (Solver α) (Error α) β} {value : β}
    (yields : ∀ s, work.Yields s s value) : Excused known able allowed work := by
  intro s same
  refine ⟨fun _ _ => (congrArg Solver.standing (yields s).state).trans same, fun e failed => ?_⟩
  cases (yields s).result.symm.trans failed

theorem pure (value : β) :
    Excused known able allowed (pure value : Procedure (Event α) (Solver α) (Error α) β) :=
  of_yields (.pure value)

theorem log (event : Event α) :
    Excused known able allowed (log event : Procedure (Event α) (Solver α) (Error α) Unit) :=
  of_yields (.log event)

theorem bind {work : Procedure (Event α) (Solver α) (Error α) β}
    {next : β → Procedure (Event α) (Solver α) (Error α) γ}
    (first : Excused known able allowed work)
    (rest : ∀ value, Excused known able allowed (next value)) :
    Excused known able allowed (work >>= next) := by
  intro s same
  obtain ⟨kept, excused⟩ := first s same
  cases answered : (work.run s).result with
  | error e =>
      rw [run_bind_of_error answered]
      refine ⟨fun _ ok => (by cases ok), fun e' failed => ?_⟩
      cases failed
      exact excused e answered
  | ok value =>
      rw [run_bind_of_ok answered]
      exact rest value _ (kept value answered)

theorem map {work : Procedure (Event α) (Solver α) (Error α) β} (f : β → γ)
    (excused : Excused known able allowed work) : Excused known able allowed (f <$> work) :=
  excused.bind fun value => .pure (f value)

variable [Scalar α] [Zero α] [Add α] [Sub α] [Mul α] [Neg α] {request : Request α β}

theorem attempt (suits : request.Suits known.diagrams) (affords : able → request.Affordable known)
    (admits : ∀ e, request.Admits known.failure e → allowed e) (i : Nat) (context : Context α) :
    Excused known able allowed (attempt i context request) := by
  rintro s rfl
  refine ⟨fun value ok => ?_, fun e failed => ?_⟩
  · have state := congrArg Prod.fst (ending_attempt i context request s)
    exact (congrArg Solver.standing state).trans
      (Solver.standing_of_serve (result_attempt_eq_ok_iff.mp ok))
  · rw [Procedure.run, Batch.attempt] at failed
    cases answered : ((Engine.perform request).run s).result with
    | ok value =>
        rw [answered] at failed
        cases failed
    | error source =>
        rw [answered] at failed
        have excuse := Solver.failsOnly_serve suits source answered
        cases source with
        | misuse cause =>
            cases failed
            rcases excuse with ⟨-, poor⟩ | never
            · exact .inl ⟨⟨cause, rfl⟩, fun can => poor (affords can)⟩
            · exact never.elim
        | _ =>
            cases failed
            rcases excuse with ⟨⟨_, other⟩, -⟩ | admitted
            · cases other
            · exact .inr ⟨_, _, _, _, rfl, admits _ admitted⟩

end Excused

/-- The routine needs nothing but costs in place, and fails only if it was set up to. -/
def Routine.ordinary (routine : Routine) : Bool :=
  routine ≠ .iterations ∧ routine ≠ .gradIterations ∧ routine ≠ .rounding

namespace Operation

theorem excused_logGradients {known : Standing} {able : Prop} {allowed : EngineError → Prop}
    (i : Nat) (named : List (String × Array α)) :
    Excused known able allowed (logGradients i named) :=
  .of_yields (yields_logGradients i named)

section One

variable [Scalar α] [Zero α] [Add α] [Sub α] [Mul α] [Neg α]
  {known : Standing} {able : Prop} {allowed : EngineError → Prop}
  (intact : able → known.intact = true)
  (injected : ∀ routine, known.failure = some routine → allowed (.injected routine))

include intact injected

theorem excused_ask {request : Request α β} (ordinary : request.routine.ordinary = true)
    (suits : request.Suits known.diagrams) (i : Nat) (context : Context α) :
    Excused known able allowed (attempt i context request) := by
  obtain ⟨still, ahead, quick⟩ := of_decide_eq_true ordinary
  refine .attempt suits (fun can => ?_) (fun e admitted => ?_) i context
  · cases request with
    | iterations => exact absurd rfl still
    | rounding => exact absurd rfl quick
    | _ => exact intact can
  · cases e with
    | injected routine => exact injected routine admitted
    | inconsistentReplay => exact absurd admitted ahead
    | noAgreement => exact absurd admitted quick
    | _ => exact admitted.elim

variable {layers bdds slots : Span} {total totalBdds totalSlots : Nat}
  (long : layers.length = known.diagrams.layers) (inside : layers.stop ≤ total) (i : Nat)

include long

theorem excused_readCosts (context : Context α) :
    Excused known able allowed (attempt i context (.costs (roomForCosts layers))) := by
  refine excused_ask intact injected rfl ?_ i context
  rw [roomForCosts, long]
  rfl

include inside

theorem excused_setCosts {costs : Costs (Array α)} (sized : costs.Sized total)
    (context : Context α) :
    Excused known able allowed (attempt i context (.setCosts (costs.map layers.slice))) := by
  have share := long ▸ sized.slice inside
  refine excused_ask intact injected rfl ?_ i context
  exact share

theorem excused_setUndeferred {branches : Branches (Array α)} (sized : branches.Sized total)
    (context : Context α) :
    Excused known able allowed (attempt i context (.setCosts (undeferred branches layers))) := by
  have share := long ▸ sized.slice inside
  refine excused_ask intact injected rfl ?_ i context
  exact ⟨share, Array.size_replicate.trans long⟩

theorem excused_redistributeOne {costs : Costs (Array α)} (sized : costs.Sized total) :
    Excused known able allowed (redistributeOne costs i layers) := by
  refine (Excused.log _).bind fun _ =>
    (excused_setCosts intact injected long inside i sized _).bind fun _ =>
    (excused_ask intact injected rfl ?_ i _).bind fun _ =>
    excused_readCosts intact injected long i _
  exact trivial

theorem excused_minMarginalsOne {branches : Branches (Array α)} (sized : branches.Sized total) :
    Excused known able allowed (minMarginalsOne branches i layers) := by
  refine (Excused.log _).bind fun _ =>
    (excused_setUndeferred intact injected long inside i sized _).bind fun _ =>
    excused_ask intact injected rfl ?_ i _
  exact long

theorem excused_solutionOne {branches : Branches (Array α)} (sized : branches.Sized total) :
    Excused known able allowed (solutionOne branches i layers) := by
  refine (excused_setUndeferred intact injected long inside i sized _).bind fun _ =>
    excused_ask intact injected rfl ?_ i _
  exact long

theorem excused_lowerBoundsOne {branches : Branches (Array α)} (sized : branches.Sized total)
    (few : bdds.length = known.diagrams.bdds) :
    Excused known able allowed (lowerBoundsOne branches i layers bdds) := by
  refine (Excused.log _).bind fun _ =>
    (excused_setUndeferred intact injected long inside i sized _).bind fun _ =>
    excused_ask intact injected rfl ?_ i _
  exact few

theorem excused_perturbOne {inputs : Perturbed (Array α)} (sized : inputs.costs.Sized total)
    (change : inputs.change.Sized totalSlots) (wide : slots.length = known.diagrams.slots)
    (within : slots.stop ≤ totalSlots) :
    Excused known able allowed (perturbOne inputs i layers slots) := by
  have share := wide ▸ change.slice within
  refine (Excused.log _).bind fun _ =>
    (excused_setUndeferred intact injected long inside i sized _).bind fun _ =>
    (excused_ask intact injected rfl ?_ i _).bind fun _ =>
    (excused_readCosts intact injected long i _).bind fun _ => .pure _
  exact share

theorem excused_ascendOne {inputs : Inputs α (Array α)} (sized : inputs.Sized total)
    (few : bdds.length = known.diagrams.bdds) {settings : AscentSettings α}
    (window : able → settings.summarises = true →
      fitsMemory (settings.window + 1) Solver.stepBytes = true)
    (sums : able → (known.limit.map (min · settings.iterations)).getD settings.iterations = 0 ∨
      fitsMemory known.diagrams.slots Solver.sumBytes = true) :
    Excused known able allowed (ascendOne inputs settings i layers bdds) := by
  have share := long ▸ sized.slice inside
  refine (Excused.log _).bind fun _ =>
    (excused_setCosts intact injected long inside i sized.costs _).bind fun _ =>
    (Excused.attempt ?_ (fun can => ?_) (fun e admitted => ?_) i _).bind fun _ =>
    (excused_readCosts intact injected long i _).bind fun _ => .pure _
  · refine ⟨share.weights, share.damping, ?_⟩
    rw [← long, ← few]
    exact room_trendRequest settings layers bdds
  · refine ⟨intact can, fun asked found => ?_, sums can⟩
    rw [trendRequest] at found
    split at found
    · next summarises =>
        cases found
        exact window can summarises
    · cases found
  · cases e with
    | injected routine => exact injected routine admitted
    | inconsistentReplay => cases admitted
    | noAgreement => cases admitted
    | _ => exact admitted.elim

theorem excused_roundOne {costs : Costs (Array α)} (sized : costs.Sized total)
    {settings : RoundingSettings α}
    (counts : able → fitsMemory known.diagrams.slots Solver.countBytes = true)
    (rounds : ∀ n, allowed (.noAgreement n)) :
    Excused known able allowed (roundOne costs settings i layers) := by
  refine (Excused.log _).bind fun _ =>
    (excused_setCosts intact injected long inside i sized _).bind fun _ =>
    Excused.attempt ?_ counts (fun e admitted => ?_) i _
  · exact trivial
  · cases e with
    | injected routine => exact injected routine admitted
    | inconsistentReplay => cases admitted
    | noAgreement n => exact rounds n
    | _ => exact admitted.elim

theorem excused_redistributeOneBackward {costs : Costs (Array α)} (sized : costs.Sized total)
    {outer : Branches (Array α)} (incoming : outer.Sized total) :
    Excused known able allowed (redistributeOneBackward costs outer i layers) := by
  refine (excused_setCosts intact injected long inside i sized _).bind fun _ =>
    excused_ask intact injected rfl ?_ i _
  exact ⟨long ▸ incoming.slice inside, long⟩

theorem excused_minMarginalsOneBackward {branches : Branches (Array α)}
    (sized : branches.Sized total) {outer : Array α} (incoming : outer.size = total) :
    Excused known able allowed (minMarginalsOneBackward branches outer i layers) := by
  refine (excused_setUndeferred intact injected long inside i sized _).bind fun _ =>
    excused_ask intact injected rfl ?_ i _
  exact ⟨(layers.size_slice _ (incoming ▸ inside)).trans long, by rw [long]⟩

theorem excused_lowerBoundsOneBackward {branches : Branches (Array α)}
    (sized : branches.Sized total) (few : bdds.length = known.diagrams.bdds) {outer : Array α}
    (incoming : outer.size = totalBdds) (within : bdds.stop ≤ totalBdds) :
    Excused known able allowed (lowerBoundsOneBackward branches outer i layers bdds) := by
  refine (excused_setUndeferred intact injected long inside i sized _).bind fun _ =>
    excused_ask intact injected rfl ?_ i _
  exact ⟨(bdds.size_slice _ (incoming ▸ within)).trans few, Array.size_replicate.trans long, long⟩

theorem excused_perturbOneBackward {inputs : Perturbed (Array α)}
    (sized : inputs.costs.Sized total) (wide : slots.length = known.diagrams.slots)
    {outer : Branches (Array α)} (incoming : outer.Sized total) :
    Excused known able allowed (perturbOneBackward inputs outer i layers slots) := by
  refine (excused_setUndeferred intact injected long inside i sized _).bind fun _ =>
    excused_ask intact injected rfl ?_ i _
  exact ⟨long ▸ incoming.slice inside, by rw [wide]⟩

theorem excused_descendOne {record : AscentRecord α} (sized : record.inputs.Sized total)
    {outer : Costs (Array α)} (incoming : outer.Sized total)
    (replays : ∀ skip tracked run, allowed (.inconsistentReplay skip tracked run))
    (window : ReplayWindow) (carried : α) :
    Excused known able allowed (descendOne record outer i layers window carried) := by
  have share := long ▸ sized.slice inside
  have gradient := long ▸ incoming.slice inside
  refine (Excused.log _).bind fun _ =>
    (excused_setCosts intact injected long inside i sized.costs _).bind fun _ =>
    (excused_logGradients i _).bind fun _ =>
    (Excused.attempt ?_ (fun can => ?_) (fun e admitted => ?_) i _).bind fun _ =>
    (excused_logGradients i _).bind fun _ => .pure _
  · refine ⟨share.weights, share.damping, gradient, Array.size_replicate.trans long, ?_⟩
    dsimp only
    split
    · trivial
    · exact Array.size_replicate.trans long
  · exact intact can
  · cases e with
    | injected routine => exact injected routine admitted
    | inconsistentReplay => exact replays _ _ _
    | noAgreement => cases admitted
    | _ => exact admitted.elim

end One

end Operation

end DualAscent
