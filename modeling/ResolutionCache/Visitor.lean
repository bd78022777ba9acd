import ResolutionCache.Address

/-!
# Visitors

A pass over the addresses that some holder keeps is driven by a *visitor*: it is shown an address,
answers with the address that the holder shall keep instead, and may carry a state from one address
to the next. A collector's visitor answers with the place the object was moved to; a marking
visitor answers with the same address and notes it in its state.

Holders never show a null address (`Visitor.meet`). A pass that must know how much it changed
wraps its visitor (`Visitor.counting`); one that must know what was shown uses a visitor that
collects (`Visitor.collecting`).
-/

namespace ResolutionCache

/-- Answers an address with the address to keep in its place, carrying a state of type `σ`. -/
abbrev Visitor (w : Nat) (σ : Type) := Address w → StateM σ (Address w)

namespace Visitor

variable {w : Nat} {σ : Type}

/-- Shows an address to the visitor, unless it is null: a null address stays null unseen. -/
def meet (v : Visitor w σ) (a : Address w) : StateM σ (Address w) :=
  if a.isNull then pure a else v a

/-- Shows every address of an array to the visitor, in order, and keeps its answers. -/
def meetAll (v : Visitor w σ) (held : Array (Address w)) : StateM σ (Array (Address w)) :=
  held.mapM v.meet

/-- The same visitor, counting beside its state the addresses that it changed. -/
def counting (v : Visitor w σ) : Visitor w (σ × Nat) := fun a (state, changed) =>
  let (kept, state) := v a state
  (kept, state, if kept = a then changed else changed + 1)

/-- The visitor that answers by a function and collects the addresses shown, in order. -/
def collecting (f : Address w → Address w) : Visitor w (Array (Address w)) := fun a shown =>
  (f a, shown.push a)

end Visitor

end ResolutionCache
