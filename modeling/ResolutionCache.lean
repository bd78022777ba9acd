import ResolutionCache.Machine
import ResolutionCache.Main
import ResolutionCache.Proofs.Collection.Annals
import ResolutionCache.Proofs.LoadTest.Run
import ResolutionCache.Proofs.Machine.Faults
import ResolutionCache.Proofs.Machine.Leftovers
import ResolutionCache.Proofs.Machine.Remembered
import ResolutionCache.Proofs.Machine.Rollback
import ResolutionCache.Proofs.Machine.Tables
import ResolutionCache.Proofs.Mutator.Invisible
import ResolutionCache.Proofs.Resolver.CallSites
import ResolutionCache.Proofs.Resolver.LastWriter
import ResolutionCache.Proofs.Resolver.Overlaid
import ResolutionCache.Relocation
import ResolutionCache.Span
import ResolutionCache.Proofs.Collection.Orders
import ResolutionCache.Proofs.LoadTest.Bound
import ResolutionCache.Proofs.LoadTest.Figures
import ResolutionCache.Proofs.Resolver.Larger
import ResolutionCache.Proofs.LoadTest.Larger
import ResolutionCache.Proofs.LoadTest.Generator
import ResolutionCache.Proofs.Slot
import ResolutionCache.Proofs.Machine.Orders
