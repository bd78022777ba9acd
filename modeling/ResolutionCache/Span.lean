import ResolutionCache.Resolver

/-!
# Spans of indices

A span holds the indices from one up to, but not including, another. Looking up a span
(`Resolver.getSpan`) answers with those of its indices that are resolved; resolving a span
(`Resolver.setSpan`) gives its indices addresses at equal distances.

Both go from index to index and end with the first fault. So a span may reach far past the indices
of a file: it costs no more than the indices that are dealt with. What was stored before the fault
stays stored.
-/

namespace ResolutionCache

/-- The indices from `first` up to, but not including, `stop`. -/
structure Span where
  first : Nat
  stop : Nat

namespace Span

variable {α : Type}

/-- How many indices a span holds. -/
def size (s : Span) : Nat := s.stop - s.first

/-- The index at a place of a span. -/
def index (s : Span) (place : Nat) : UInt32 := (s.first + place).toUInt32

/-- Asks for `count` indices from a place of a span on, and puts those that have an answer, each
with its answer, after the ones that were found before. -/
def collect (s : Span) (question : UInt32 → Except Fault (Option α)) :
    (count place : Nat) → Array (UInt32 × α) → Except Fault (Array (UInt32 × α))
  | 0, _, found => .ok found
  | count + 1, place, found => do
    match ← question (s.index place) with
    | none => s.collect question count (place + 1) found
    | some answer => s.collect question count (place + 1) (found.push (s.index place, answer))

end Span

/-- The address at a place of a row of addresses at equal distances. -/
def Address.inRow {w : Nat} (base step place : Nat) : Address w := .ofNat (base + place * step)

namespace Resolver

/-- The resolved indices of a span, each with what it resolved to. -/
def getSpan (r : Resolver) (kind : SlotKind) (s : Span) :
    Except Fault (Array (UInt32 × Address kind.width)) :=
  s.collect (r.get kind) s.size 0 #[]

/-- The bound indices of a span, each with its call site. -/
def getCallSiteSpan (r : Resolver) (s : Span) : Except Fault (Array (UInt32 × Ref)) :=
  s.collect r.getCallSite s.size 0 #[]

/-- Keeps for each index of a span that it resolved to the address at its place in a row. -/
def setSpan (kind : SlotKind) (s : Span) (base step : Nat) : Attempt Resolver Unit :=
  Attempt.forEach (fun place => set kind (s.index place) (.inRow base step place)) s.size 0

/-- Binds each index of a span, unless it is bound, to the address at its place in a row. -/
def setCallSiteSpan (s : Span) (base step : Nat) : Attempt Resolver Unit :=
  Attempt.forEach (fun place => do
    let _ ← setCallSite (s.index place) (.inRow base step place)) s.size 0

end Resolver

end ResolutionCache
