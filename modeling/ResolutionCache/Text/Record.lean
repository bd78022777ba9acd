/-!
# Structural forms

A value with named parts is shown on one line as its name and, between braces, its parts in order:
each part's name, a colon, and the part's own form.
-/

namespace ResolutionCache.Text

/-- The structural form of a value with at least one named part. -/
def record (name : String) (parts : List (String × String)) : String :=
  let shown := parts.map fun (part, form) => part ++ ": " ++ form
  name ++ " \x7b " ++ ", ".intercalate shown ++ " \x7d"

/-- The words for the two truth values. -/
def truth (b : Bool) : String :=
  if b then "true" else "false"

end ResolutionCache.Text
