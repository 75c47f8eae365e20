import DualAscent.Diagrams
import Mathlib.Algebra.BigOperators.Fin

/-!
# Where the layers of a chain are

Layers are numbered chain after chain.  The layers of a chain are therefore consecutive; they read
its variables in order, and the terminal layer is the last of them.  A variable that no chain covers
has no layer.
-/

namespace DualAscent

/-- Every index below a sum of lengths lies in one of the ranges of these lengths. -/
theorem exists_sum_take_le_lt {lengths : List Nat} {k : Nat} (inside : k < lengths.sum) :
    ∃ i < lengths.length, (lengths.take i).sum ≤ k ∧ k < (lengths.take (i + 1)).sum := by
  induction lengths generalizing k with
  | nil => cases inside
  | cons n lengths ih =>
      by_cases here : k < n
      · exact ⟨0, Nat.succ_pos _, Nat.zero_le k, by simpa using here⟩
      · rw [List.sum_cons] at inside
        obtain ⟨i, below, start, stop⟩ := ih (show k - n < lengths.sum by omega)
        refine ⟨i + 1, Nat.succ_lt_succ below, ?_, ?_⟩
        · rw [List.take_succ_cons, List.sum_cons]
          omega
        · rw [List.take_succ_cons, List.sum_cons]
          omega

namespace Diagrams

variable (d : Diagrams)

theorem get_slotOf (l : Fin d.layers) : d.slotOf.get l = (d.sites.get l).slot :=
  List.getElem_map fun site : Site d.slots d.bdds => site.slot

theorem get_chainOf (l : Fin d.layers) : d.chainOf.get l = (d.sites.get l).chain :=
  List.getElem_map fun site : Site d.slots d.bdds => site.chain

section Variables

variable {d} {v : Fin d.primals}

theorem castSucc_mem_chainSlots_iff {chain : Fin d.bdds} :
    v.castSucc ∈ d.chainSlots chain ↔ v ∈ d.chains.get chain := by
  rw [chainSlots, List.mem_append, List.mem_singleton]
  constructor
  · rintro (covered | terminal)
    · obtain ⟨w, inside, same⟩ := List.mem_map.mp covered
      rwa [← Fin.castSucc_injective _ same]
    · exact absurd terminal (Fin.castSucc_ne_last v)
  · intro covered
    exact .inl (List.mem_map_of_mem covered)

/-- A variable has a layer if and only if some chain covers it. -/
theorem exists_layer_iff :
    (∃ l, d.slotOf.get l = v.castSucc) ↔ ∃ chain ∈ d.chains, v ∈ chain := by
  constructor
  · rintro ⟨l, here⟩
    obtain ⟨chain, -, inside⟩ := List.mem_flatMap.mp (List.get_mem d.sites l)
    obtain ⟨slot, member, site⟩ := List.mem_map.mp inside
    rw [get_slotOf, ← site] at here
    subst here
    exact ⟨d.chains.get chain, List.get_mem _ _, castSucc_mem_chainSlots_iff.mp member⟩
  · rintro ⟨chain, there, covered⟩
    obtain ⟨i, rfl⟩ := List.get_of_mem there
    have site : (⟨v.castSucc, i⟩ : Site d.slots d.bdds) ∈ d.sites :=
      List.mem_flatMap.mpr ⟨i, List.mem_finRange i,
        List.mem_map.mpr ⟨_, castSucc_mem_chainSlots_iff.mpr covered, rfl⟩⟩
    obtain ⟨l, same⟩ := List.get_of_mem site
    exact ⟨l, (d.get_slotOf l).trans (congrArg Site.slot same)⟩

end Variables

/-- Number of layers of every chain: one for each variable, and the terminal one. -/
def widths : List Nat := d.chains.map (·.length + 1)

/-- Number of layers of the chains before one. -/
def offset (chain : Nat) : Nat := (d.widths.take chain).sum

/-- The sites of the layers of every chain. -/
def blocks : List (List (Site d.slots d.bdds)) :=
  (List.finRange d.bdds).map fun chain => (d.chainSlots chain).map fun slot => ⟨slot, chain⟩

theorem sites_eq_flatten : d.sites = d.blocks.flatten := List.flatMap_def ..

theorem getElem_blocks (chain : Fin d.bdds) (inside : chain < d.blocks.length) :
    d.blocks[chain.val] = (d.chainSlots chain).map fun slot => ⟨slot, chain⟩ := by
  simp only [blocks, List.getElem_map, List.getElem_finRange, Fin.cast_mk]

theorem map_length_blocks : d.blocks.map List.length = d.widths := by
  refine List.ext_getElem (by simp [blocks, widths]) fun i inside _ => ?_
  simp [blocks, widths, chainSlots]

theorem layers_eq_sum : d.layers = d.widths.sum := by
  rw [layers, sites_eq_flatten, List.length_flatten, map_length_blocks]

theorem offset_succ (chain : Fin d.bdds) :
    d.offset (chain + 1) = d.offset chain + ((d.chains.get chain).length + 1) := by
  have there : chain.val < d.widths.length := by
    rw [widths, List.length_map]
    exact chain.isLt
  rw [offset, offset, List.take_succ_eq_append_getElem there, List.sum_append, List.sum_singleton]
  simp only [widths, List.getElem_map]
  rfl

theorem offset_le_layers (chain : Nat) : d.offset chain ≤ d.layers := by
  rw [layers_eq_sum, ← List.sum_take_add_sum_drop d.widths chain]
  exact Nat.le_add_right _ _

/-- The layers of a chain are those from one number up to another: they read its variables in order,
and then comes the terminal layer. -/
structure Spans (chain : Fin d.bdds) (start stop : Nat) : Prop where
  length : stop = start + ((d.chains.get chain).length + 1)
  inside : stop ≤ d.layers
  layer_iff : ∀ l : Fin d.layers, d.chainOf.get l = chain ↔ start ≤ l ∧ l < stop
  slot : ∀ l : Fin d.layers, start ≤ l → l < stop → d.slotOf.get l =
    ((d.chains.get chain)[l.val - start]?.map Fin.castSucc).getD (Fin.last d.primals)
  terminal_iff : ∀ l : Fin d.layers, start ≤ l → l < stop →
    (d.slotOf.get l = Fin.last d.primals ↔ l + 1 = stop)

/-- The slot of a chain's layer by its number in the chain. -/
theorem getElem?_chainSlots (chain : Fin d.bdds) {k : Nat}
    (inside : k < (d.chains.get chain).length + 1) :
    (d.chainSlots chain)[k]? =
      some (((d.chains.get chain)[k]?.map Fin.castSucc).getD (Fin.last d.primals)) := by
  rw [chainSlots]
  by_cases covered : k < (d.chains.get chain).length
  · rw [List.getElem?_append_left (by rwa [List.length_map]), List.getElem?_map,
      List.getElem?_eq_getElem covered]
    rfl
  · obtain rfl : k = (d.chains.get chain).length := by omega
    rw [List.getElem?_append_right (by rw [List.length_map]), List.length_map, Nat.sub_self,
      List.getElem?_eq_none (Nat.le_refl _)]
    rfl

theorem site_at {chain : Fin d.bdds} {l : Fin d.layers} (start : d.offset chain ≤ l)
    (stop : l < d.offset (chain + 1)) :
    d.chainOf.get l = chain ∧ d.slotOf.get l =
      ((d.chains.get chain)[l.val - d.offset chain]?.map Fin.castSucc).getD
        (Fin.last d.primals) := by
  have there : chain.val < d.blocks.length := by
    simp only [blocks, List.length_map, List.length_finRange, chain.isLt]
  have block := List.drop_take_succ_flatten_eq_getElem d.blocks chain there
  rw [getElem_blocks, map_length_blocks, ← sites_eq_flatten] at block
  have found : (((d.chainSlots chain).map (⟨·, chain⟩ : _ → Site d.slots d.bdds))[
      l.val - d.offset chain]?) = some (d.sites.get l) := by
    rw [← block]
    show ((d.sites.take (d.offset (chain + 1))).drop (d.offset chain))[_]? = _
    rw [List.getElem?_drop, Nat.add_sub_cancel' start, List.getElem?_take_of_lt stop]
    exact List.getElem?_eq_getElem l.isLt
  rw [offset_succ] at stop
  rw [List.getElem?_map, getElem?_chainSlots d chain (by omega)] at found
  rw [get_chainOf, get_slotOf, ← Option.some.inj found]
  exact ⟨rfl, rfl⟩

theorem spans_offset (chain : Fin d.bdds) :
    d.Spans chain (d.offset chain) (d.offset (chain + 1)) := by
  refine ⟨d.offset_succ chain, d.offset_le_layers _, fun l => ⟨fun here => ?_, fun inside => ?_⟩,
    fun l start stop => (d.site_at start stop).2, fun l start stop => ?_⟩
  · obtain ⟨i, below, start, stop⟩ := exists_sum_take_le_lt (l.isLt.trans_eq d.layers_eq_sum)
    rw [widths, List.length_map] at below
    obtain rfl : (⟨i, below⟩ : Fin d.bdds) = chain :=
      (d.site_at (show d.offset (⟨i, below⟩ : Fin d.bdds) ≤ l from start) stop).1.symm.trans here
    exact ⟨start, stop⟩
  · exact (d.site_at inside.1 inside.2).1
  · rw [(d.site_at start stop).2]
    rw [offset_succ] at stop ⊢
    by_cases covered : l.val - d.offset chain < (d.chains.get chain).length
    · rw [List.getElem?_eq_getElem covered]
      exact iff_of_false (Fin.castSucc_ne_last _) (by omega)
    · rw [List.getElem?_eq_none (Nat.le_of_not_lt covered)]
      exact iff_of_true rfl (by omega)

/-- Every chain has a layer, its terminal one if no other. -/
theorem exists_layer (chain : Fin d.bdds) : ∃ l, d.chainOf.get l = chain := by
  have spans := d.spans_offset chain
  have first : d.offset chain < d.offset (chain + 1) := by
    rw [offset_succ]
    omega
  exact ⟨⟨d.offset chain, first.trans_le spans.inside⟩, (spans.layer_iff _).mpr ⟨le_rfl, first⟩⟩

end Diagrams

end DualAscent
