import DualAscent.Proofs.Operation.Parts

/-!
# A batch is its solvers

A batched operation is what it is on each solver alone, segment by segment.
-/

namespace DualAscent

open Procedure Batch

/-- A visit to a single solver. -/
theorem Batch.ending_visit_singleton {Λ σ ε ι β γ α : Type} [Engine α σ]
    (work : Nat → ι → Procedure Λ σ ε β) (share : ι) (merge : List β → Except ε γ) (s : σ) :
    ((visit [share] work >>= fun parts => lift (merge parts)).run (ofSolvers [s])).ending =
      (⟨[⟨((work 0 share).run s).ending.1, Engine.sizes s⟩]⟩,
        ((work 0 share).run s).ending.2.bind fun part => (merge [part]).toOption) := by
  have members : (ofSolvers [s]).members = [⟨s, Engine.sizes s⟩] := rfl
  rw [ending_bind, ending_visit, members, ending_walk_cons, ending_quiet]
  rcases ((work 0 share).run s).ending with ⟨reached, none | part⟩
  · rfl
  · rfl

namespace Call

variable {α π β : Type} [Scalar α] [Zero α] [Add α] [Sub α] [Mul α] [Neg α]

/-- The call on a solver's share, with the solver alone in a batch. -/
def alone (call : Call α π β) (sizes : List Sizes) (i : Nat) (s : Solver α) :
    Outcome (Event α) (Batch (Solver α)) (Error α) β :=
  (call.cut (place sizes i s.diagrams.sizes) i s.diagrams.sizes).perform.run (ofSolvers [s])

/-- What each solver of a batch does at its place. -/
def each (call : Call α π β) (sizes : List Sizes) (i : Nat) (size : Sizes) :
    Procedure (Event α) (Solver α) (Error α) π :=
  call.one i (place sizes i size)

/-- The call visits all solvers and then merges what they answered. -/
def MergesBy (call : Call α π β) (b : Batch (Solver α)) (merge : List π → Except (Error α) β) :
    Prop :=
  (call.perform.run b).ending =
    ((visit b.sizes (call.each b.sizes) >>= fun parts => lift (merge parts)).run b).ending

section Merge

variable {call : Call α π β} {b : Batch (Solver α)} {merge : List π → Except (Error α) β}
  {mergeAlone : Nat → Sizes → List π → Except (Error α) β}

/-- A solver alone in a batch merges what it answers in any batch. -/
theorem ending_alone {sizes : List Sizes} {i : Nat} {s : Solver α} (fits : call.Fits sizes)
    (found : sizes[i]? = some s.diagrams.sizes)
    (merges : (call.cut (place sizes i s.diagrams.sizes) i s.diagrams.sizes).MergesBy
      (ofSolvers [s]) (mergeAlone i s.diagrams.sizes)) :
    (call.alone sizes i s).ending =
      (⟨[⟨((call.each sizes i s.diagrams.sizes).run s).ending.1, s.diagrams.sizes⟩]⟩,
        ((call.each sizes i s.diagrams.sizes).run s).ending.2.bind fun part =>
          (mergeAlone i s.diagrams.sizes [part]).toOption) := by
  refine merges.trans ((ending_visit_singleton _ _ _ s).trans ?_)
  rw [each, each, ← alike_one fits found s]
  rfl

theorem exists_part_of_alone {sizes : List Sizes} {i : Nat} {s : Solver α}
    (fits : call.Fits sizes) (found : sizes[i]? = some s.diagrams.sizes)
    (merges : (call.cut (place sizes i s.diagrams.sizes) i s.diagrams.sizes).MergesBy
      (ofSolvers [s]) (mergeAlone i s.diagrams.sizes)) {value : β}
    (ok : (call.alone sizes i s).result = .ok value) :
    ∃ part, ((call.each sizes i s.diagrams.sizes).run s).result = .ok part ∧
      mergeAlone i s.diagrams.sizes [part] = .ok value := by
  have ended := congrArg Prod.snd (ending_alone fits found merges)
  simp only [Outcome.ending, ok] at ended
  obtain ⟨part, part_ok, merged⟩ := Option.bind_eq_some_iff.mp ended.symm
  exact ⟨part, toOption_eq_some_iff.mp part_ok, toOption_eq_some_iff.mp merged⟩

variable (fits : call.Fits b.sizes) (stable : b.Stable) (merges : call.MergesBy b merge)
  (mergesAlone : ∀ i s, b.sizes[i]? = some s.diagrams.sizes →
    (call.cut (place b.sizes i s.diagrams.sizes) i s.diagrams.sizes).MergesBy (ofSolvers [s])
      (mergeAlone i s.diagrams.sizes))
include fits stable merges mergesAlone

/-- The answers behind an answer of the batch. -/
theorem exists_parts {value : β} (ok : (call.perform.run b).result = .ok value) :
    ∃ parts, List.Forall₂ call.Fills b.sizes parts ∧ merge parts = .ok value ∧
      ∀ i member, b.members[i]? = some member → ∃ part, parts[i]? = some part ∧
        (call.alone b.sizes i member.solver).ending =
          (⟨((call.perform.run b).state.members[i]?).toList⟩,
            (mergeAlone i member.frozen [part]).toOption) := by
  obtain ⟨state_eq, result_eq⟩ := ending_eq_iff.mp merges
  obtain ⟨parts, visited, merged⟩ := result_bind_eq_ok_iff.mp ((result_eq value).mp ok)
  obtain ⟨moved, served⟩ := served_of_visit (by simp [sizes]) visited
  have state_eq : (call.perform.run b).state = ⟨moved⟩ := by
    rw [state_eq, state_bind_of_ok visited]
    exact served.visit.state
  refine ⟨parts, served.forall₂ (R := call.Fills) fun i size s part ok => fills_of_one ok, merged,
    fun i member member_at => ?_⟩
  have found := getElem?_sizes member_at
  obtain ⟨part, part_at, part_ok, moved_at⟩ := served.get found member_at
  refine ⟨part, part_at, ?_⟩
  have unchanged : member.solver.diagrams.sizes = member.frozen :=
    stable member (List.mem_of_getElem? member_at)
  rw [Nat.zero_add] at part_ok moved_at
  rw [state_eq, moved_at]
  rw [← unchanged] at found part_ok ⊢
  rw [ending_alone fits found (mergesAlone i member.solver found)]
  simp only [Outcome.ending, part_ok]
  rfl

/-- The answers that solvers give alone in their batches. -/
theorem exists_parts_of_each (answers : ∀ i member, b.members[i]? = some member →
      ∃ value, (call.alone b.sizes i member.solver).result = .ok value) :
    ∃ parts, List.Forall₂ call.Fills b.sizes parts ∧
      (∀ i size part, b.sizes[i]? = some size → parts[i]? = some part →
        ∃ value, mergeAlone i size [part] = .ok value) ∧
      (call.perform.run b).result.toOption = (merge parts).toOption := by
  have answered : ∀ i size member, b.sizes[i]? = some size → b.members[i]? = some member →
      ∃ part value, ((call.each b.sizes i size).run member.solver).result = .ok part ∧
        mergeAlone i size [part] = .ok value := by
    intro i size member found member_at
    have unchanged : member.solver.diagrams.sizes = member.frozen :=
      stable member (List.mem_of_getElem? member_at)
    obtain rfl : member.solver.diagrams.sizes = size :=
      unchanged.trans (Option.some.inj ((getElem?_sizes member_at).symm.trans found))
    obtain ⟨value, ok⟩ := answers i member member_at
    obtain ⟨part, part_ok, merged⟩ :=
      exists_part_of_alone fits found (mergesAlone i member.solver found) ok
    exact ⟨part, value, part_ok, merged⟩
  have served_ok : ∀ i size member, b.sizes[i]? = some size → b.members[i]? = some member →
      ∃ part, ((call.each b.sizes (0 + i) size).run member.solver).result = .ok part := by
    intro i size member found member_at
    obtain ⟨part, value, part_ok, -⟩ := answered i size member found member_at
    rw [Nat.zero_add]
    exact ⟨part, part_ok⟩
  obtain ⟨moved, parts, served⟩ := served_of_each (by simp [sizes]) 0 served_ok
  refine ⟨parts, served.forall₂ (R := call.Fills) fun i size s part ok => fills_of_one ok, ?_, ?_⟩
  · intro i size part found part_at
    have inside := (List.getElem?_eq_some_iff.mp found).1
    rw [sizes, List.length_map] at inside
    have member_at := List.getElem?_eq_getElem inside
    obtain ⟨part', part_at', part_ok, -⟩ := served.get found member_at
    obtain ⟨other, value, other_ok, merged⟩ := answered i size _ found member_at
    rw [Nat.zero_add] at part_ok
    cases part_at.symm.trans part_at'
    cases part_ok.symm.trans other_ok
    exact ⟨value, merged⟩
  · have visited := served.visit.ending_bind fun parts => lift (merge parts)
    exact congrArg Prod.snd (merges.trans visited)

end Merge

theorem mergesBy_finish {call : Call α π β} {b : Batch (Solver α)} (fits : call.Fits b.sizes)
    (separate : call.Separate) (stable : b.Stable) : call.MergesBy b (call.finish b.sizes) :=
  ending_perform fits separate stable

/-- What a solver alone puts together from its answer. -/
def finishAlone (call : Call α π β) (sizes : List Sizes) (i : Nat) (size : Sizes) :
    List π → Except (Error α) β :=
  (call.cut (place sizes i size) i size).finish [size]

theorem mergesBy_finishAlone {call : Call α π β} {sizes : List Sizes} (fits : call.Fits sizes)
    (separate : call.Separate) (i : Nat) (s : Solver α)
    (found : sizes[i]? = some s.diagrams.sizes) :
    (call.cut (place sizes i s.diagrams.sizes) i s.diagrams.sizes).MergesBy (ofSolvers [s])
      (call.finishAlone sizes i s.diagrams.sizes) :=
  mergesBy_finish (fits.cut found) (separate.cut _) (stable_ofSolvers [s])

/-- Unless the solvers share a factor, what each of them does in a batch is what it does alone. -/
theorem result_alone_of_result {call : Call α π β} {b : Batch (Solver α)}
    (fits : call.Fits b.sizes) (separate : call.Separate) (stable : b.Stable) {value : β}
    (ok : (call.perform.run b).result = .ok value) {i : Nat} {member : Member (Solver α)}
    (member_at : b.members[i]? = some member) :
    (call.alone b.sizes i member.solver).result =
        .ok (call.cutAnswer (place b.sizes i member.frozen) i member.frozen value) ∧
      (call.alone b.sizes i member.solver).state.members =
        ((call.perform.run b).state.members[i]?).toList := by
  obtain ⟨parts, filled, merged, each⟩ := exists_parts fits stable
    (mergesBy_finish fits separate stable) (mergesBy_finishAlone fits separate) ok
  obtain ⟨part, part_at, ended⟩ := each i member member_at
  have found := getElem?_sizes member_at
  rw [finishAlone, finish_cut fits separate filled found part_at merged] at ended
  obtain ⟨state_eq, result_eq⟩ := ending_eq_some_iff.mp ended
  exact ⟨result_eq, congrArg members state_eq⟩

theorem exists_result_of_alone {call : Call α π β} {b : Batch (Solver α)}
    (fits : call.Fits b.sizes) (separate : call.Separate) (stable : b.Stable)
    (answers : ∀ i member, b.members[i]? = some member →
      ∃ value, (call.alone b.sizes i member.solver).result = .ok value) :
    ∃ value, (call.perform.run b).result = .ok value := by
  obtain ⟨parts, filled, merged, ended⟩ := exists_parts_of_each fits stable
    (mergesBy_finish fits separate stable) (mergesBy_finishAlone fits separate) answers
  obtain ⟨value, finished⟩ := finish_of_each fits separate filled merged
  rw [finished] at ended
  exact ⟨value, toOption_eq_some_iff.mp ended⟩

section Exact

variable {R : Type} [CommRing R] [Scalar R] [AllFinite R] {record : AscentRecord R}
  {gradients : DenseGradients R} {b : Batch (Solver R)}

/-- The gradient in exact arithmetic: that of a shared factor is a sum over the solvers. -/
def finishSummed (record : AscentRecord R) (parts : List (Inputs R (Array R))) :
    Except (Error R) (Inputs R (Array R)) :=
  finishCarrying record ((parts.map contribution).sum, parts)

theorem finishSummed_eq_ok (record : AscentRecord R) (parts : List (Inputs R (Array R))) :
    finishSummed record parts =
      .ok (Operation.gathered record (parts.map contribution).sum parts) := by
  rw [finishSummed, finishCarrying, Operation.checked, Operation.requireFiniteArrays_eq_ok]
  rfl

/-- What a solver alone puts together from its gradient. -/
def finishSummedAlone (record : AscentRecord R) (sizes : List Sizes) (i : Nat) (size : Sizes) :
    List (Inputs R (Array R)) → Except (Error R) (Inputs R (Array R)) :=
  finishSummed (cutAscent record (place sizes i size) i size)

variable {factor : R} (shared : record.inputs.damping = .shared factor)
  (fits : (ascendBackward record gradients).Fits b.sizes) (stable : b.Stable)
include shared fits

omit [AllFinite R] in
theorem mergesBy_finishSummedAlone (i : Nat) (s : Solver R)
    (found : b.sizes[i]? = some s.diagrams.sizes) :
    ((ascendBackward record gradients).cut (place b.sizes i s.diagrams.sizes) i
      s.diagrams.sizes).MergesBy (ofSolvers [s])
        (finishSummedAlone record b.sizes i s.diagrams.sizes) := by
  have shared_alone : (cutAscent record (place b.sizes i s.diagrams.sizes) i
      s.diagrams.sizes).inputs.damping = .shared factor := by
    rw [cutAscent, Inputs.map, shared]
    rfl
  exact ending_ascendBackward_exact shared_alone (fits.cut found) (stable_ofSolvers [s])

include stable

theorem gradient_alone_of_result {gradient : Inputs R (Array R)}
    (ok : ((ascendBackward record gradients).perform.run b).result = .ok gradient) :
    ∃ summands : List R, summands.length = b.members.length ∧
      gradient.damping = .shared summands.sum ∧
      ∀ i member summand, b.members[i]? = some member → summands[i]? = some summand →
        let outcome := (ascendBackward record gradients).alone b.sizes i member.solver
        outcome.result = .ok { gradient.map (place b.sizes i member.frozen .layer).slice with
          damping := .shared summand } ∧
        outcome.state.members =
          (((ascendBackward record gradients).perform.run b).state.members[i]?).toList := by
  obtain ⟨parts, filled, merged, each⟩ := exists_parts fits stable
    (ending_ascendBackward_exact shared fits stable) (mergesBy_finishSummedAlone shared fits) ok
  obtain rfl := Except.ok.inj ((finishSummed_eq_ok record parts).symm.trans merged)
  refine ⟨parts.map contribution, ?_, ?_, fun i member summand member_at summand_at => ?_⟩
  · rw [List.length_map, ← filled.length_eq]
    exact List.length_map _
  · simp only [Operation.gathered, shared]
  · obtain ⟨part, part_at, ended⟩ := each i member member_at
    have found := getElem?_sizes member_at
    rw [List.getElem?_map, part_at] at summand_at
    obtain rfl := Option.some.inj summand_at
    rw [finishSummedAlone, finishSummed_eq_ok] at ended
    obtain ⟨state_eq, result_eq⟩ := ending_eq_some_iff.mp ended
    refine ⟨result_eq.trans (congrArg Except.ok ?_), congrArg members state_eq⟩
    have cut_eq := map_slice_gathered (parts.map contribution).sum filled found part_at
    rw [cut_eq]
    simp only [Operation.gathered, cutAscent, Inputs.map, shared, Damping.map, List.map_cons,
      List.map_nil, List.sum_cons, List.sum_nil, add_zero]

theorem exists_gradient_of_alone
    (answers : ∀ i member, b.members[i]? = some member → ∃ gradient,
      ((ascendBackward record gradients).alone b.sizes i member.solver).result = .ok gradient) :
    ∃ gradient, ((ascendBackward record gradients).perform.run b).result = .ok gradient := by
  obtain ⟨parts, -, -, ended⟩ := exists_parts_of_each fits stable
    (ending_ascendBackward_exact shared fits stable) (mergesBy_finishSummedAlone shared fits)
    answers
  have ended : _ = (finishSummed record parts).toOption := ended
  rw [finishSummed_eq_ok] at ended
  exact ⟨_, toOption_eq_some_iff.mp ended⟩

end Exact

/-- A call on a batch answers exactly if it does so on every solver alone.  Each solver then answers
its share of the answer of the batch and ends in the same state.  If solvers contribute to the
gradient of a shared damping factor, this is so in exact arithmetic, and the gradient is the sum
of their contributions. -/
theorem perform_eq_alone :
    (∀ {α π β : Type} [Scalar α] [Zero α] [Add α] [Sub α] [Mul α] [Neg α] (call : Call α π β)
      (b : Batch (Solver α)), b.Stable → call.Fits b.sizes → call.Separate →
      (∀ value, (call.perform.run b).result = .ok value →
        ∀ i member, b.members[i]? = some member →
          let outcome := call.alone b.sizes i member.solver
          outcome.result =
            .ok (call.cutAnswer (place b.sizes i member.frozen) i member.frozen value) ∧
          outcome.state.members = ((call.perform.run b).state.members[i]?).toList) ∧
      ((∀ i member, b.members[i]? = some member →
        ∃ value, (call.alone b.sizes i member.solver).result = .ok value) →
          ∃ value, (call.perform.run b).result = .ok value)) ∧
    (∀ {R : Type} [CommRing R] [Scalar R] [AllFinite R] (record : AscentRecord R)
      (gradients : DenseGradients R) (b : Batch (Solver R)) (factor : R), b.Stable →
      (ascendBackward record gradients).Fits b.sizes → record.inputs.damping = .shared factor →
      let call := ascendBackward record gradients
      (∀ gradient, (call.perform.run b).result = .ok gradient →
        ∃ summands : List R, summands.length = b.members.length ∧
          gradient.damping = .shared summands.sum ∧
          ∀ i member summand, b.members[i]? = some member → summands[i]? = some summand →
            let outcome := call.alone b.sizes i member.solver
            outcome.result = .ok { gradient.map (place b.sizes i member.frozen .layer).slice with
              damping := .shared summand } ∧
            outcome.state.members = ((call.perform.run b).state.members[i]?).toList) ∧
      ((∀ i member, b.members[i]? = some member →
        ∃ gradient, (call.alone b.sizes i member.solver).result = .ok gradient) →
          ∃ gradient, (call.perform.run b).result = .ok gradient)) := by
  refine ⟨fun call b stable fits separate => ⟨fun value ok i member member_at => ?_, ?_⟩,
    fun record gradients b factor stable fits shared => ⟨fun gradient ok => ?_, ?_⟩⟩
  · exact result_alone_of_result fits separate stable ok member_at
  · exact exists_result_of_alone fits separate stable
  · exact gradient_alone_of_result shared fits stable ok
  · exact exists_gradient_of_alone shared fits stable

/-- A solver with one long chain and one with two short ones, each of which has made a step. -/
def neighbours : Batch (Solver ℚ) :=
  ofSolvers [
    { Solver.ofDiagrams ⟨3, [[0, 1]]⟩ none none with pending := [1] },
    { Solver.ofDiagrams ⟨3, [[0], [2]]⟩ none none with pending := [1] }]

/-- Costs of their layers. -/
def neighbourCosts : Branches (Array ℚ) := ⟨#[0, 0, 0, 0, 0, 0, 0], #[1, 0, 0, 1, 0, 2, 0]⟩

/-- The step that they have made. -/
def neighbourRuns : AscentRecord ℚ where
  inputs := ⟨⟨neighbourCosts, #[0, 0, 0, 0, 0, 0, 0]⟩,
    #[1, 1 / 2, 1, 1 / 3, 1, 1 / 2, 1], .shared (1 / 2)⟩
  sizes := neighbours.sizes
  realized := [1, 1]
  tracked := 1
  caches := 1

/-- Gradients of the deferred min-marginals that come out of it. -/
def neighbourGradients : DenseGradients ℚ := ⟨none, none, some #[1, 0, 0, 0, 1, 0, 0], none, none⟩

theorem neighbours_perform_eq_alone :
    (∃ value, ((minMarginals neighbourCosts).perform.run neighbours).result = .ok value ∧
      ∀ i member, neighbours.members[i]? = some member →
        ((minMarginals neighbourCosts).alone neighbours.sizes i member.solver).result =
          .ok ((minMarginals neighbourCosts).cutAnswer (place neighbours.sizes i member.frozen) i
            member.frozen value)) ∧
    ∃ (gradient : Inputs ℚ (Array ℚ)) (summands : List ℚ),
      ((ascendBackward neighbourRuns neighbourGradients).perform.run neighbours).result =
        .ok gradient ∧ summands.length = 2 ∧ gradient.damping = .shared summands.sum ∧
      ∀ i member summand, neighbours.members[i]? = some member → summands[i]? = some summand →
        ((ascendBackward neighbourRuns neighbourGradients).alone neighbours.sizes i
          member.solver).result =
            .ok { gradient.map (place neighbours.sizes i member.frozen .layer).slice with
              damping := .shared summand } := by
  have answered : ((minMarginals neighbourCosts).perform.run neighbours).result.toOption.isSome =
      true := by decide +kernel
  have replayed : ((ascendBackward neighbourRuns neighbourGradients).perform.run
      neighbours).result.toOption.isSome = true := by decide +kernel
  obtain ⟨value, value_eq⟩ := Option.isSome_iff_exists.mp answered
  obtain ⟨gradient, gradient_eq⟩ := Option.isSome_iff_exists.mp replayed
  rw [toOption_eq_some_iff] at value_eq gradient_eq
  have stable : neighbours.Stable := stable_ofSolvers _
  have gradientsFit : neighbourGradients.Fits .layer neighbours.sizes := by
    refine ⟨fun _ absent => ?_, fun _ absent => ?_, fun values there => ?_, fun _ absent => ?_⟩
    · cases absent
    · cases absent
    · cases there
      rfl
    · cases absent
  have fits : (ascendBackward neighbourRuns neighbourGradients).Fits neighbours.sizes :=
    ⟨rfl, rfl, ⟨⟨⟨rfl, rfl⟩, rfl⟩, rfl, trivial⟩, gradientsFit⟩
  refine ⟨⟨value, value_eq, fun i member member_at => ?_⟩, ?_⟩
  · exact ((perform_eq_alone.1 (minMarginals neighbourCosts) neighbours stable ⟨rfl, rfl⟩
      trivial).1 value value_eq i member member_at).1
  · obtain ⟨summands, length_eq, damping_eq, each⟩ := (perform_eq_alone.2 neighbourRuns
      neighbourGradients neighbours (1 / 2) stable fits rfl).1 gradient gradient_eq
    exact ⟨gradient, summands, gradient_eq, length_eq, damping_eq, fun i member summand member_at
      summand_at => (each i member summand member_at summand_at).1⟩

end Call

end DualAscent
