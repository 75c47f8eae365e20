import DualAscent.Proofs.Batch.Place
import DualAscent.Proofs.Exact
import DualAscent.Proofs.Session.Origin

/-!
# Layouts

A layout cuts a flat array into one segment for each solver, without gaps and without overlaps.
Segments may be empty, so that several of them start at one index, but only one holds it.  A forward
pass begins with a report of the layouts by which it cuts, and the sizes on record give them again.
-/

namespace DualAscent

open Procedure Batch

variable {α β σ : Type}

/-- The index is one of the range. -/
def Span.Holds (span : Span) (k : Nat) : Prop := span.start ≤ k ∧ k < span.stop

/-- The ranges cut an array into segments of these lengths. -/
structure Layout.Partitions (layout : Layout) (lengths : List Nat) : Prop where
  /-- There is one range for each segment. -/
  count : layout.spans.length = lengths.length
  /-- A range has the length of its segment. -/
  length : ∀ (i : Nat) (span : Span), layout.spans[i]? = some span →
    span.start ≤ span.stop ∧ lengths[i]? = some span.length
  /-- The first range starts at zero. -/
  first : ∀ span : Span, layout.spans[0]? = some span → span.start = 0
  /-- Any other range starts where the one before it ends. -/
  next : ∀ (i : Nat) (span after : Span), layout.spans[i]? = some span →
    layout.spans[i + 1]? = some after → after.start = span.stop
  /-- No range goes past the end of the array. -/
  within : ∀ span ∈ layout.spans, span.stop ≤ layout.total
  /-- An index of the array lies in exactly one range. -/
  inside : ∀ k < layout.total,
    ∃! i : Nat, ∃ span : Span, layout.spans[i]? = some span ∧ span.Holds k
  /-- No other index lies in any. -/
  outside : ∀ k, layout.total ≤ k → ∀ span ∈ layout.spans, ¬span.Holds k
  /-- The array is as long as all segments together. -/
  total : layout.total = lengths.sum

section Places

variable {kind : Segmentation} {sizes : List Sizes} {size size' : Sizes} {i j k : Nat}

theorem Sizes.total_take_le (kind : Segmentation) (sizes : List Sizes) (order : i ≤ j) :
    Sizes.total kind (sizes.take i) ≤ Sizes.total kind (sizes.take j) := by
  obtain ⟨d, rfl⟩ := Nat.exists_eq_add_of_le order
  rw [List.take_add, Sizes.total, Sizes.total, List.map_append, List.sum_append]
  exact Nat.le_add_right _ _

/-- A segment ends where the first ones up to it do. -/
theorem stop_place (found : sizes[i]? = some size) (kind : Segmentation) :
    (place sizes i size kind).stop = Sizes.total kind (sizes.take (i + 1)) := by
  rw [List.take_add_one, found]
  simp [place, Sizes.total]

/-- Segments do not overlap. -/
theorem place_unique (found : sizes[i]? = some size) (found' : sizes[j]? = some size')
    (here : (place sizes i size kind).Holds k) (there : (place sizes j size' kind).Holds k) :
    i = j := by
  have ordered {i j : Nat} {size size' : Sizes} (found : sizes[i]? = some size) (less : i < j)
      (here : (place sizes i size kind).Holds k) : ¬(place sizes j size' kind).Holds k := by
    rintro ⟨above, -⟩
    have below := here.2
    rw [stop_place found] at below
    exact absurd (below.trans_le (Sizes.total_take_le kind sizes less)) (Nat.not_lt.mpr above)
  rcases Nat.lt_trichotomy i j with less | same | greater
  · exact absurd there (ordered found less here)
  · exact same
  · exact absurd here (ordered found' greater there)

namespace Layout

theorem getElem?_spans_ofSizes {span : Span} :
    (ofSizes kind sizes).spans[i]? = some span ↔
      ∃ size, sizes[i]? = some size ∧ place sizes i size kind = span := by
  rw [spans_ofSizes, List.getElem?_mapIdx, Option.map_eq_some_iff]

theorem partitions_ofSizes (kind : Segmentation) (sizes : List Sizes) :
    (ofSizes kind sizes).Partitions (sizes.map (·.segment kind)) where
  count := by rw [spans_ofSizes, List.length_mapIdx, List.length_map]
  length := by
    intro i span span_at
    obtain ⟨size, found, rfl⟩ := getElem?_spans_ofSizes.mp span_at
    refine ⟨Nat.le_add_right _ _, ?_⟩
    rw [length_place, List.getElem?_map, found, Option.map_some]
  first := by
    intro span span_at
    obtain ⟨size, -, rfl⟩ := getElem?_spans_ofSizes.mp span_at
    rfl
  next := by
    intro i span after span_at after_at
    obtain ⟨size, found, rfl⟩ := getElem?_spans_ofSizes.mp span_at
    obtain ⟨size', -, rfl⟩ := getElem?_spans_ofSizes.mp after_at
    exact (stop_place found kind).symm
  within := by
    intro span member
    obtain ⟨i, span_at⟩ := List.mem_iff_getElem?.mp member
    obtain ⟨size, found, rfl⟩ := getElem?_spans_ofSizes.mp span_at
    rw [total_ofSizes]
    exact stop_place_le found kind
  inside := by
    intro k below
    rw [total_ofSizes] at below
    obtain ⟨i, size, found, holds⟩ := exists_place below
    refine ⟨i, ⟨_, getElem?_spans_ofSizes.mpr ⟨size, found, rfl⟩, holds⟩, ?_⟩
    rintro j ⟨span, span_at, there⟩
    obtain ⟨size', found', rfl⟩ := getElem?_spans_ofSizes.mp span_at
    exact place_unique found' found there holds
  outside := by
    rintro k beyond span member ⟨-, below⟩
    obtain ⟨i, span_at⟩ := List.mem_iff_getElem?.mp member
    obtain ⟨size, found, rfl⟩ := getElem?_spans_ofSizes.mp span_at
    rw [total_ofSizes] at beyond
    exact absurd (below.trans_le (stop_place_le found kind)) (Nat.not_lt.mpr beyond)
  total := total_ofSizes kind sizes

theorem require_eq_ok_iff {layout : Layout} {length : Nat} :
    (layout.require length : Except (Error α) Unit) = .ok () ↔ length = layout.total := by
  refine ⟨fun ok => (total_of_require ok).symm, ?_⟩
  rintro rfl
  rw [require, fits, decide_eq_true rfl, if_pos rfl]

theorem require_of_ne {layout : Layout} {length : Nat} (differs : length ≠ layout.total) :
    layout.require length =
      (.error (.layoutMismatch layout.kind layout.total length) : Except (Error α) Unit) := by
  rw [require, fits, decide_eq_false differs.symm, if_neg Bool.false_ne_true]

end Layout

end Places

/-- An answer comes with a report that begins with these layouts. -/
def Reports (layouts : List Layout) (work : Work α σ β) (b : Batch σ) : Prop :=
  ∀ value, (work.run b).result = .ok value →
    ∃ later, (work.run b).events = layouts.map .resolved ++ later

namespace Reports

variable {γ : Type} {b : Batch σ} {layouts : List Layout}

theorem nil {work : Work α σ β} : Reports [] work b := fun _ _ => ⟨_, rfl⟩

theorem lift_bind {check : Except (Error α) γ} {next : γ → Work α σ β}
    (rest : ∀ value, Reports layouts (next value) b) : Reports layouts (lift check >>= next) b := by
  intro value ok
  cases check with
  | error e => cases ok
  | ok first => exact rest first value ok

theorem read_bind {next : Batch σ → Work α σ β} (rest : Reports layouts (next b) b) :
    Reports layouts (read >>= next) b := rest

theorem resolve_bind [Engine α σ] {kind : Segmentation} {length : Nat} {next : Layout → Work α σ β}
    (rest : Reports layouts (next (.ofSizes kind b.sizes)) b) :
    Reports (.ofSizes kind b.sizes :: layouts) (resolve kind length >>= next) b := by
  intro value ok
  obtain ⟨⟨stable, rfl⟩, answered⟩ := result_resolve_bind_eq_ok_iff.mp ok
  obtain ⟨later, events⟩ := rest value answered
  have resolved := run_resolve_of_covered (α := α) stable kind rfl
  refine ⟨later, ?_⟩
  rw [run_bind_of_ok (congrArg Outcome.result resolved), resolved]
  exact congrArg (_ :: ·) events

end Reports

/-- What the flat arrays belong to that the forward pass cuts. -/
def Record.kinds : Record α → List Segmentation
  | .ascent _ | .bounds _ => [.layer, .bdd]
  | .redistribution _ | .minMarginals _ => [.layer]
  | .perturbation _ => [.layer, .slot]

namespace Session

theorem events_recording {ρ : Type} {label : Nat} {wrap : ρ → Record α}
    {forward : Batch.Work α σ (β × ρ)} {s : Session α σ} {answer : β} {saved : ρ}
    (ok : (forward.run s.batch).result = .ok (answer, saved)) :
    ((recording label wrap forward).run s).events = (forward.run s.batch).events := by
  have forwarded : ((onBatch forward).run s).result = .ok (answer, saved) :=
    congrArg (Except.mapError CommandError.operation) ok
  rw [recording, run_bind_of_ok forwarded]
  exact List.append_nil _

variable [Scalar α] [Zero α] [Engine α σ]

/-- A forward pass begins with its layouts. -/
theorem events_of_recorded {s : Session α σ} {label : Nat} {command : Command α β} {value : β}
    {record : Record α} (ok : ((execute label command).run s).result = .ok value)
    (kept : ((execute label command).run s).state.records = (label, record) :: s.records) :
    ∃ later, ((execute label command).run s).events =
      (record.kinds.map (Layout.ofSizes · s.batch.sizes)).map .resolved ++ later := by
  have begins {ρ : Type} {wrap : ρ → Record α} {forward : Batch.Work α σ (β × ρ)}
      {kinds : List Segmentation} (same : ∀ saved, (wrap saved).kinds = kinds)
      (ok : ((recording label wrap forward).run s).result = .ok value)
      (kept : ((recording label wrap forward).run s).state.records = (label, record) :: s.records)
      (reports : Reports (kinds.map (Layout.ofSizes · s.batch.sizes)) forward s.batch) :
      ∃ later, ((recording label wrap forward).run s).events =
        (record.kinds.map (Layout.ofSizes · s.batch.sizes)).map .resolved ++ later := by
    obtain ⟨answer, saved, answered, rfl⟩ := exists_of_recording ok kept
    rw [events_recording answered, same]
    exact reports _ answered
  cases command with
  | ascend inputs settings =>
      exact begins (fun _ => rfl) ok kept
        (.lift_bind fun _ => .resolve_bind (.read_bind (.resolve_bind .nil)))
  | redistribute costs =>
      exact begins (fun _ => rfl) ok kept
        (.lift_bind fun _ => .lift_bind fun _ => .resolve_bind .nil)
  | minMarginals branches =>
      exact begins (fun _ => rfl) ok kept (.lift_bind fun _ => .resolve_bind .nil)
  | perturb inputs =>
      exact begins (fun _ => rfl) ok kept
        (.lift_bind fun _ => .resolve_bind (.resolve_bind .nil))
  | lowerBounds branches =>
      exact begins (fun _ => rfl) ok kept
        (.lift_bind fun _ => .resolve_bind (.read_bind (.resolve_bind .nil)))
  | backward of gradients => exact absurd kept (records_backward_ne_cons gradients)
  | round costs settings => exact absurd kept (List.ne_cons_self)
  | solution branches => exact absurd kept (List.ne_cons_self)

/-- The layout of a batch is a partition into the segments of its solvers.  It accepts exactly the
arrays of its total length, which is that of the batch.  Whatever a forward pass records, the
layouts that it begins with are those of the sizes on record. -/
theorem layout_isPartition (kind : Segmentation) (sizes : List Sizes) :
    let layout := Layout.ofSizes kind sizes
    layout.Partitions (sizes.map (·.segment kind)) ∧
    (∀ length, ((layout.require length : Except (Error α) Unit) = .ok () ↔ length = layout.total) ∧
      (length ≠ layout.total → layout.require length =
        (.error (.layoutMismatch kind layout.total length) : Except (Error α) Unit))) ∧
    (∀ b : Batch σ, b.sizes = sizes → b.total kind = layout.total) ∧
    ∀ (s : Session α σ) (label : Nat) (answer : Type) (command : Command α answer) (value : answer)
      (record : Record α), let outcome := (execute label command).run s
      s.batch.sizes = sizes → outcome.result = .ok value →
      outcome.state.records = (label, record) :: s.records →
        Layout.ofSizes kind record.sizes = layout ∧ ∃ later, outcome.events =
          (record.kinds.map (Layout.ofSizes · record.sizes)).map .resolved ++ later := by
  refine ⟨Layout.partitions_ofSizes kind sizes, fun length =>
    ⟨Layout.require_eq_ok_iff, Layout.require_of_ne⟩, ?_, ?_⟩
  · rintro b rfl
    rw [b.total_eq_sum, Layout.total_ofSizes]
  · rintro s label answer command value record outcome rfl ok kept
    have left : record.LeftBy s.batch := ⟨s, label, answer, command, value, rfl, ok, kept⟩
    rw [left.origin.2]
    exact ⟨rfl, events_of_recorded ok kept⟩

section Examples

/-- Three solvers, the second of which has no chains. -/
def sparse : Batch (Solver ℚ) :=
  ofSolvers [.ofDiagrams ⟨2, [List.finRange 2]⟩ none none, .ofDiagrams ⟨1, []⟩ none none,
    .ofDiagrams ⟨1, [List.finRange 1]⟩ none none]

theorem sparse_isPartition :
    let layout := Layout.ofSizes .bdd sparse.sizes
    let zeros : Buffer ℚ := .ofArray (Array.replicate 5 0)
    let outcome := (execute 0 (.lowerBounds ⟨zeros, zeros⟩)).run ⟨sparse, []⟩
    layout.spans = [⟨0, 1⟩, ⟨1, 1⟩, ⟨1, 2⟩] ∧
      (∃! i : Nat, ∃ span : Span, layout.spans[i]? = some span ∧ span.Holds 1) ∧
      sparse.total .bdd = layout.total ∧
      layout.require 3 = (.error (.layoutMismatch .bdd 2 3) : Except (Error ℚ) Unit) ∧
      ∃ record, outcome.state.records = [(0, record)] ∧
        Layout.ofSizes .bdd record.sizes = layout ∧ ∃ later, outcome.events =
          (record.kinds.map (Layout.ofSizes · record.sizes)).map .resolved ++ later := by
  intro layout zeros outcome
  have answers : ((Operation.lowerBounds ⟨zeros, zeros⟩ : Batch.Work ℚ (Solver ℚ) _).run
      sparse).result.toOption.isSome = true := by decide +kernel
  obtain ⟨⟨bounds, saved⟩, ok⟩ := Option.isSome_iff_exists.mp answers
  have recorded := recording_of_ok (s := ⟨sparse, []⟩) 0 Record.bounds (toOption_eq_some_iff.mp ok)
  have kept : outcome.state.records = [(0, .bounds saved)] :=
    congrArg Session.records recorded.state
  obtain ⟨cut, accepts, length_eq, again⟩ :=
    layout_isPartition (α := ℚ) (σ := Solver ℚ) .bdd sparse.sizes
  have total : layout.total = 2 := by decide +kernel
  refine ⟨by decide +kernel, cut.inside 1 (total ▸ Nat.one_lt_two), length_eq sparse rfl, ?_,
    .bounds saved, kept, ?_⟩
  · rw [(accepts 3).2 (by rw [total]; decide), total]
  · exact again _ 0 _ (.lowerBounds ⟨zeros, zeros⟩) bounds _ rfl recorded.result kept

end Examples

end Session

end DualAscent
