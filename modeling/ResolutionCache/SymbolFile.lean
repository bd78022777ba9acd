import ResolutionCache.Index
import ResolutionCache.Text.Quoted
import ResolutionCache.Text.Record

/-!
# Symbol files

What a cache needs to know of the loaded file it serves: where it came from, and how many indices
each of its spaces has. The counts size the tables and bound the indices.
-/

namespace ResolutionCache

/-- The location of a loaded file and the sizes of its index spaces. -/
structure SymbolFile where
  location : String
  strings : UInt32 := 0
  types : UInt32 := 0
  protos : UInt32 := 0
  fields : UInt32 := 0
  methods : UInt32 := 0
  callSites : UInt32 := 0
  deriving DecidableEq

namespace SymbolFile

/-- The number of indices in a space: indices below it are in range. -/
def count (f : SymbolFile) : IndexSpace → UInt32
  | .string => f.strings
  | .type => f.types
  | .proto => f.protos
  | .field => f.fields
  | .method => f.methods
  | .callSite => f.callSites

/-- The file in its structural form. -/
def debug (f : SymbolFile) : String :=
  Text.record "DexFile"
    [ ("location", Text.quoted f.location),
      ("num_string_ids", toString f.strings.toNat),
      ("num_type_ids", toString f.types.toNat),
      ("num_proto_ids", toString f.protos.toNat),
      ("num_field_ids", toString f.fields.toNat),
      ("num_method_ids", toString f.methods.toNat),
      ("num_call_site_ids", toString f.callSites.toNat) ]

end SymbolFile

end ResolutionCache
