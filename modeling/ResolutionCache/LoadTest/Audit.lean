import ResolutionCache.LoadTest.Basic
import ResolutionCache.LoadTest.Symbols

/-!
# The audit of a load test

After a collection every cached string and type is looked at: it must lead to a live object that
bears the mark of its index. A cached call site must lead to a live object. Native records are not
looked at.
-/

namespace ResolutionCache.LoadTest

/-- How many entries a string index has in the cache, none or one; the one must be right. -/
def auditString (w : LoadTest) (index : Nat) : Except LoadTestError Nat := do
  match ← (w.resolver.get .string index.toUInt32).mapError .fault with
  | none => return 0
  | some string =>
    match w.heap.resolve string .string with
    | some (.string text) =>
      if text = stringText index then return 1 else throw (.wrongString index text)
    | _ => throw (.deadString index)

/-- How many entries a type index has in the cache, none or one; the one must be right. -/
def auditType (w : LoadTest) (index : Nat) : Except LoadTestError Nat := do
  match ← (w.resolver.get .type index.toUInt32).mapError .fault with
  | none => return 0
  | some type =>
    match w.heap.resolve type .classRecord with
    | some (.classRecord c) =>
      if !c.isPublishable then throw (.unresolvedType index)
      else if c.descriptor = typeDescriptor index ∧ c.statics[0]? = some index.toUInt64 then
        return 1
      else throw (.wrongType index c.descriptor)
    | _ => throw (.deadType index)

/-- How many entries a call site index has in the cache, none or one; the one must be live. -/
def auditCallSite (w : LoadTest) (index : Nat) : Except LoadTestError Nat := do
  match ← (w.resolver.getCallSite index.toUInt32).mapError .fault with
  | none => return 0
  | some callSite =>
    if (w.heap.resolve callSite .callSite).isSome then return 1 else throw (.deadCallSite index)

/-- How many entries a string index and a type index of one number have together. -/
def auditSymbol (w : LoadTest) (index : Nat) : Except LoadTestError Nat := do
  let strings ← auditString w index
  let types ← auditType w index
  return strings + types

/-- Adds what `count` indices from `first` on have to a sum, unless one of them is wrong. -/
def total (entries : Nat → Except LoadTestError Nat) :
    (count first sum : Nat) → Except LoadTestError Nat
  | 0, _, sum => .ok sum
  | count + 1, first, sum => do
    let found ← entries first
    total entries count (first + 1) (sum + found)

/-- The number of cached strings, types and call sites, all of which must be right. -/
def audit (w : LoadTest) : Except LoadTestError Nat := do
  let file := w.resolver.cache.file
  let symbols ← total (auditSymbol w) file.strings.toNat 0 0
  total (auditCallSite w) file.callSites.toNat 0 symbols

end ResolutionCache.LoadTest
