import CyclicCalls.Source.Calls
import CyclicCalls.Source.Grammar.Statement
import CyclicCalls.Source.Lexer
/-!
# Reading source text

The characters of a source are scanned into tokens, and the tokens are read by
the rules of the grammar. The depth that the rules are supplied to is the length
of the text, which no nesting reaches.
-/

set_option autoImplicit false

namespace CyclicCalls.Source

/-- The statements of a text, or nothing when it does not follow the grammar. -/
def statements? (chars : List Char) : Option (List Stmt) := do
  let tokens ← Lexer.scan? 1 chars
  let deeper := Grammar.expressionAt (chars.length + 8)
  let pattern := Grammar.patternAt deeper (chars.length + 8)
  let inner := Grammar.statementsAt deeper pattern (chars.length + 8)
  let (found, _) ← (Grammar.wholeText deeper pattern inner).run tokens
  pure found

/-- The expression that a whole text is, or nothing when it is none. -/
def expression? (chars : List Char) : Option Expr := do
  let tokens ← Lexer.scan? 1 chars
  let (found, _) ← (Grammar.wholeExpression (Grammar.expressionAt (chars.length + 8))).run tokens
  pure found

/-- The statements of a source file. -/
def readBytes? (bytes : Bytes) : Option (List Stmt) :=
  (decodeSource? bytes).bind statements?

/-- The statements of a source given as text. -/
def readText? (text : String) : Option (List Stmt) :=
  (ofText? text).bind statements?

/-- The expression that a text is. -/
def readExpression? (text : String) : Option Expr :=
  (ofText? text).bind expression?

end CyclicCalls.Source
