/-!
# Tokens

What the scanner makes of source text. Blanks, comments and line ends inside
brackets have no token; the depth of indentation shows as `indent` and `dedent`
tokens around the lines of a block.
-/

set_option autoImplicit false

namespace CyclicCalls.Source

/-- The tokens, with the line on which they start where it matters. -/
inductive Token where
  | name (line : Nat) (text : String)
  | keyword (line : Nat) (text : String)
  | number (line : Nat) (imaginary : Bool)
  /-- A text literal. Each replacement field is a token list of its own: its text
  between round brackets. -/
  | text (line : Nat) (binary : Bool) (fields : List (List Token))
  /-- An operator or a delimiter. -/
  | mark (line : Nat) (text : String)
  | newline
  | indent
  | dedent
  | stop

namespace Token

/-- The line on which a token starts. -/
def line : Token → Nat
  | .name line _ => line
  | .keyword line _ => line
  | .number line _ => line
  | .text line _ _ => line
  | .mark line _ => line
  | _ => 0

/-- The words that cannot be names. -/
def keywords : List String :=
  ["False", "None", "True", "and", "as", "assert", "async", "await", "break", "class", "continue",
    "def", "del", "elif", "else", "except", "finally", "for", "from", "global", "if", "import", "in",
    "is", "lambda", "nonlocal", "not", "or", "pass", "raise", "return", "try", "while", "with",
    "yield"]

/-- The token of a word. -/
def ofWord (line : Nat) (word : String) : Token :=
  if keywords.contains word then .keyword line word else .name line word

/-- Operators and delimiters, longer ones before those they start with. -/
def marks : List String :=
  ["**=", "//=", ">>=", "<<=", "...",
    "!=", "%=", "&=", "**", "*=", "+=", "-=", "->", "//", "/=", ":=", "<<", "<=", "<>", "==", ">=",
    ">>", "@=", "^=", "|=",
    "%", "&", "(", ")", "*", "+", ",", "-", ".", "/", ":", ";", "<", "=", ">", "@", "[", "]", "^",
    "\x7b", "|", "\x7d", "~"]

end Token

end CyclicCalls.Source
