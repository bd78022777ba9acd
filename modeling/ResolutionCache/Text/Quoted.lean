/-!
# Quoted text

A text inside a structural form stands between double quotes. The two characters that would be
misread there, the quote and the backslash, take a backslash in front; the control characters of
ASCII are written as escapes, five of them with a letter or digit and the others by their code
point in hexadecimal digits. All other characters stand for themselves.
-/

namespace ResolutionCache.Text

/-- The written form of one character between quotes. -/
def escape (c : Char) : List Char :=
  match c with
  | '"' => ['\\', '"']
  | '\\' => ['\\', '\\']
  | '\n' => ['\\', 'n']
  | '\r' => ['\\', 'r']
  | '\t' => ['\\', 't']
  | '\x00' => ['\\', '0']
  | c =>
    if c.toNat < 0x20 ∨ c.toNat = 0x7f then
      ['\\', 'u', '\x7b'] ++ Nat.toDigits 16 c.toNat ++ ['\x7d']
    else [c]

/-- The text between double quotes, each character in its written form. -/
def quoted (text : String) : String :=
  "\"" ++ String.ofList (text.toList.flatMap escape) ++ "\""

end ResolutionCache.Text
