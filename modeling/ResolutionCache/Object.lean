/-!
# Objects and native records

The managed objects that references lead to, and the native records behind the pointers of fields
and methods. A cache never looks inside any of them. A reference is used at the shape it was made
for: read at another shape, an object is as good as absent.
-/

namespace ResolutionCache

/-- How far a class has come. -/
inductive ClassStage where
  | loaded
  | resolved
  | initialized
  deriving DecidableEq

/-- The word for a class status. -/
def ClassStage.label : ClassStage → String
  | loaded => "Loaded"
  | resolved => "Resolved"
  | initialized => "Initialized"

/-- A class: its descriptor, how far it has come, and the storage of its static fields. -/
structure ClassRecord where
  descriptor : String
  status : ClassStage := .loaded
  statics : Array UInt64
  deriving DecidableEq

namespace ClassRecord

/-- A class just loaded, with a number of static fields that are all zero. -/
def ofStatics (descriptor : String) (statics : Nat) : ClassRecord :=
  { descriptor, statics := Array.replicate statics 0 }

/-- The class with values written over its first static fields; values beyond the last field are
dropped. -/
def fill (c : ClassRecord) (values : List UInt64) : ClassRecord :=
  { c with
    statics := values.zipIdx.foldl (fun s (value, i) => s.setIfInBounds i value) c.statics }

/-- Only a class that has been resolved may be published. -/
def isPublishable (c : ClassRecord) : Bool := c.status != .loaded

end ClassRecord

/-- The native record of a field: its name and where in an object it lies. -/
structure FieldRecord where
  name : String
  offset : UInt32
  deriving DecidableEq

/-- The native record of a method: its name and where its code starts. -/
structure MethodRecord where
  name : String
  entryPoint : UInt64
  deriving DecidableEq

/-- The shapes of managed objects. -/
inductive Shape where
  | string
  | classRecord
  | methodType
  | callSite
  | word
  deriving DecidableEq

/-- A managed object. -/
inductive Object where
  /-- A string with its text. -/
  | string (text : String)
  /-- A class. -/
  | classRecord (record : ClassRecord)
  /-- A method type, told by its shorty: the letters of its return and parameter types. -/
  | methodType (shorty : String)
  /-- A call site, bound to a target. -/
  | callSite (target : String)
  /-- A plain 64-bit word. -/
  | word (value : UInt64)
  deriving DecidableEq

/-- The shape of an object. -/
def Object.shape : Object → Shape
  | string _ => .string
  | classRecord _ => .classRecord
  | methodType _ => .methodType
  | callSite _ => .callSite
  | word _ => .word

end ResolutionCache
