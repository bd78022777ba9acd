import ResolutionCache.Fault

/-!
# Index generators

A load test spreads its lookups over the indices of a file by a shift register of 64 bits: each step
folds three shifted copies of the state into it, and the next index is the remainder of the state
by the number of indices. A state of zero would stay zero for ever, so a generator starts from an
odd one.
-/

namespace ResolutionCache

/-- The state of a shift register. -/
structure Generator where
  state : UInt64
  deriving DecidableEq

namespace Generator

/-- The generator of a seed: the seed made odd. -/
def ofSeed (seed : UInt64) : Generator := ⟨seed ||| 1⟩

/-- One step of the register. -/
def scramble (state : UInt64) : UInt64 :=
  let state := state ^^^ (state <<< 13)
  let state := state ^^^ (state >>> 7)
  state ^^^ (state <<< 17)

/-- The next index below a bound, and the generator after it. There is none below zero. -/
def next (g : Generator) (bound : UInt32) : Except Fault (UInt32 × Generator) :=
  let state := scramble g.state
  if bound = 0 then .error .zeroDivisor
  else .ok ((state % bound.toUInt64).toUInt32, ⟨state⟩)

end Generator

end ResolutionCache
