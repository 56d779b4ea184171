import EntityCompiler.Text.Ascii
import EntityCompiler.Text.Lowercase

/-!
# Snake case

The snake-case form of a name: a word break before each capital letter that starts a word, then
lower case.  A capital starts a word after a small letter or digit, and also inside a run of
capitals when a small letter follows it, so that `HTTPRequest` becomes `http_request`.
-/

namespace EntityCompiler.Text

/-- Breaks the name between a small letter or digit and a capital.  A match takes both characters, so that the
next one starts after them. -/
def breakBeforeCapital : List Char → List Char
  | a :: b :: rest =>
    if (isAsciiLower a || isAsciiDigit a) && isAsciiUpper b then
      a :: '_' :: b :: breakBeforeCapital rest
    else a :: breakBeforeCapital (b :: rest)
  | rest => rest

/-- Breaks a run of capitals before its last one when a small letter follows.  A match takes all three. -/
def breakCapitalRun : List Char → List Char
  | a :: b :: c :: rest =>
    if isAsciiUpper a && isAsciiUpper b && isAsciiLower c then
      a :: '_' :: b :: c :: breakCapitalRun rest
    else a :: breakCapitalRun (b :: c :: rest)
  | rest => rest

/-- The snake-case form of a name. -/
def snakeCase (name : String) : String :=
  lower (String.ofList (breakCapitalRun (breakBeforeCapital name.toList)))

end EntityCompiler.Text
