import CyclicCalls.Symbol
import CyclicCalls.Text.Split
/-!
# What an analysis looks at

A policy names the part of a solution that an analysis is about: methods whose
module name starts with a given text and whose qualified name is not listed. The
same test decides which declarations become callers of the call graph and which
methods may close a cycle.
-/

set_option autoImplicit false

namespace CyclicCalls

/-- The start that module names must have, and the qualified names left out. -/
structure Policy where
  scope : String := ""
  ignored : List String := []
deriving DecidableEq, Repr

namespace Policy

/-- Whether a method is left out. The scope is a plain start of the module name;
it need not end at a dot. -/
def ignores (policy : Policy) (symbol : Symbol) : Bool :=
  !Text.startsWith policy.scope symbol.key.moduleName ||
    policy.ignored.contains symbol.qualifiedName

/-- A call without a known target is always left out. -/
def ignoresTarget (policy : Policy) : Option Symbol → Bool
  | none => true
  | some symbol => policy.ignores symbol

end Policy

/-- The entries of a comma-separated list, kept as they are, each once. -/
def parseIgnored : Option String → List String
  | none => []
  | some text => (Text.split "," text).eraseDups

end CyclicCalls
