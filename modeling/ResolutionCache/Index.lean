/-!
# Symbol index spaces

A file numbers its symbols from zero, separately for strings, types, prototypes, fields, methods
and call sites. An index is a 32-bit word that means something only within one of these spaces;
this module names the spaces and writes an index of a space out.
-/

namespace ResolutionCache

/-- The six spaces in which a file numbers its symbols. A prototype resolves to a method type. -/
inductive IndexSpace where
  | string
  | type
  | proto
  | field
  | method
  | callSite
  deriving DecidableEq

namespace IndexSpace

/-- The word that stands for an index of the space in messages. -/
def label : IndexSpace → String
  | string => "StringIndex"
  | type => "TypeIndex"
  | proto => "ProtoIndex"
  | field => "FieldIndex"
  | method => "MethodIndex"
  | callSite => "CallSiteIndex"

/-- An index as messages show it: the label, an at sign, the number. -/
def display (space : IndexSpace) (index : UInt32) : String :=
  space.label ++ "@" ++ toString index.toNat

/-- An index in its structural form: the label applied to the number. -/
def debug (space : IndexSpace) (index : UInt32) : String :=
  space.label ++ "(" ++ toString index.toNat ++ ")"

end IndexSpace

/-- Everything that a direct mapped table of a cache can be for. -/
inductive SlotKind where
  | string
  | type
  | methodType
  | field
  | method
  deriving DecidableEq

namespace SlotKind

/-- The index space whose members the table resolves. -/
def space : SlotKind → IndexSpace
  | string => .string
  | type => .type
  | methodType => .proto
  | field => .field
  | method => .method

/-- **Payload width in bits.** Strings, types and method types live in the managed heap, whose
references are compressed to 32 bits; fields and methods are native records behind full pointers. -/
@[reducible]
def width : SlotKind → Nat
  | string => 32
  | type => 32
  | methodType => 32
  | field => 64
  | method => 64

/-- The kind's name in a complaint about its capacity. -/
def label : SlotKind → String
  | string => "string"
  | type => "type"
  | methodType => "method type"
  | field => "field"
  | method => "method"

/-- The kinds in the order in which a configuration is checked. -/
def all : List SlotKind := [string, type, methodType, field, method]

end SlotKind

end ResolutionCache
