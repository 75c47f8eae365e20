import DualAscent.Error

/-!
Decision diagrams in chain form. A chain has one layer for every variable it covers and then a
terminal layer. Layers of all chains are numbered consecutively; the layers that read the same
variable share a slot, and all terminal layers share one more.
-/

namespace DualAscent

/-- Chains over variables that are numbered from zero. -/
structure Diagrams where
  /-- Number of primal variables. -/
  primals : Nat
  /-- The variables that each chain covers, in order. -/
  chains : List (List (Fin primals))

/-- Where a layer belongs. -/
structure Site (slots chains : Nat) where
  /-- The slot whose variable the layer reads. -/
  slot : Fin slots
  /-- The chain that the layer is part of. -/
  chain : Fin chains
deriving DecidableEq

namespace Diagrams

/-- Reads a variable number that has to be below a bound. -/
def variableBelow (primals index : Nat) : Except Misuse (Fin primals) :=
  if inside : index < primals then .ok ⟨index, inside⟩
  else .error (.variableOutOfRange index primals)

/-- Chains over variable numbers; the first number out of range is refused. -/
def ofChains (primals : Nat) (chains : List (List Nat)) : Except Misuse Diagrams := do
  let read ← chains.mapM fun chain => chain.mapM (variableBelow primals)
  return ⟨primals, read⟩

/-- Number of variable slots: the terminal slot is the last one. -/
abbrev slots (d : Diagrams) : Nat := d.primals + 1

/-- Number of chains. -/
abbrev bdds (d : Diagrams) : Nat := d.chains.length

/-- The slots of one chain's layers: its variables, and then the terminal slot. -/
def chainSlots (d : Diagrams) (chain : Fin d.bdds) : List (Fin d.slots) :=
  (d.chains.get chain).map Fin.castSucc ++ [Fin.last d.primals]

/-- Every layer, chain after chain. -/
def sites (d : Diagrams) : List (Site d.slots d.bdds) :=
  (List.finRange d.bdds).flatMap fun chain =>
    (d.chainSlots chain).map fun slot => ⟨slot, chain⟩

/-- Number of layers over all chains. -/
def layers (d : Diagrams) : Nat := d.sites.length

/-- The slot of every layer. -/
def slotOf (d : Diagrams) : Vector (Fin d.slots) d.layers :=
  ⟨(d.sites.map (·.slot)).toArray, by simp [layers]⟩

/-- The chain of every layer. -/
def chainOf (d : Diagrams) : Vector (Fin d.bdds) d.layers :=
  ⟨(d.sites.map (·.chain)).toArray, by simp [layers]⟩

/-- The sizes of these diagrams. -/
def sizes (d : Diagrams) : Sizes where
  layers := d.layers
  bdds := d.bdds
  primals := d.primals

end Diagrams

end DualAscent
