import Propositional.Text.Half
import Propositional.Text.Printable

/-!
# Quoted text

The form in which messages show a text they complain about: between quotes, with everything that
cannot be printed as it stands written as an escape. Single quotes are used unless the text holds
a single quote and no double one.

## Main definitions

* `quoteOf`: the quote a text is written in
* `escape`: one sign of quoted text
* `quoted`: the quoted form
-/

namespace Propositional.Text

/-- The quote a text is written in: double if that spares an escape, else single. -/
def quoteOf (cs : List Char) : Char :=
  if cs.contains '\x27' && !cs.contains '"' then '"' else '\x27'

/-- The sign of a number as it appears between the quotes `q`. -/
def escape (q : Char) (n : Nat) : List Char :=
  let c := Char.ofNat n
  if isHalf n then ['\\', 'u'] ++ hex 4 n
  else if c == q || c == '\\' then ['\\', c]
  else if c == '\t' then ['\\', 't']
  else if c == '\n' then ['\\', 'n']
  else if c == '\r' then ['\\', 'r']
  else if isPrintable c then [c]
  else if n < 0x100 then ['\\', 'x'] ++ hex 2 n
  else if n < 0x10000 then ['\\', 'u'] ++ hex 4 n
  else ['\\', 'U'] ++ hex 8 n

/-- A text in quotes. -/
def quoted (s : String) : String :=
  let q := quoteOf s.toList
  String.ofList (q :: (points s.toList).flatMap (escape q) ++ [q])

end Propositional.Text
