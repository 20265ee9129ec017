import CyclicCalls.Text.Quoted
/-!
# Method symbols

A method is known by where it is declared: the module, the owner (the class, or
the module itself for a function at module level) and its name. A table hands
out one symbol for each such key, numbered in the order of first use.

The number is the identity of a symbol. Two symbols with one number count as the
same node everywhere, also when they come from different tables and carry
different keys.
-/

set_option autoImplicit false

namespace CyclicCalls

/-- Where a method is declared. -/
structure MethodKey where
  /-- Dotted name of the module that holds the declaration. -/
  moduleName : String
  /-- Full name of the class that holds it, or the module name itself. -/
  owner : String
  /-- The bare name. -/
  name : String
deriving DecidableEq, Repr

/-- The owner and the name, joined by a dot. -/
def MethodKey.qualifiedName (key : MethodKey) : String :=
  key.owner ++ "." ++ key.name

/-- A declared method with its number in a table. -/
structure Symbol where
  index : Nat
  key : MethodKey
deriving DecidableEq, Repr

namespace Symbol

/-- The name under which reports show the method. -/
def qualifiedName (symbol : Symbol) : String :=
  symbol.key.qualifiedName

/-- Same number, hence same node. -/
def same (a b : Symbol) : Bool :=
  a.index == b.index

/-- The form in which error messages show the symbol. -/
def shown (symbol : Symbol) : String :=
  "MethodSymbol(" ++ toString symbol.index ++ ", " ++ Text.quoted symbol.qualifiedName ++ ")"

end Symbol

/-- The symbols of one analysis, in the order of first use. -/
structure SymbolTable where
  symbols : List Symbol := []
deriving DecidableEq, Repr

namespace SymbolTable

/-- The symbol of a key, if it was handed out before. -/
def lookup? (table : SymbolTable) (key : MethodKey) : Option Symbol :=
  table.symbols.find? (fun symbol => symbol.key == key)

/-- The symbol of a key, made at the end of the table on first use. -/
def intern (table : SymbolTable) (key : MethodKey) : Symbol × SymbolTable :=
  match table.lookup? key with
  | some symbol => (symbol, table)
  | none =>
    let symbol : Symbol := ⟨table.symbols.length, key⟩
    (symbol, ⟨table.symbols ++ [symbol]⟩)

/-- The symbols of several keys, handed out from left to right. -/
def internAll (table : SymbolTable) : List MethodKey → List Symbol × SymbolTable
  | [] => ([], table)
  | key :: keys =>
    let (symbol, next) := table.intern key
    let (symbols, last) := next.internAll keys
    (symbol :: symbols, last)

/-- The symbol at a position, counted from the end when negative. -/
def at? (table : SymbolTable) (position : Int) : Option Symbol :=
  if 0 ≤ position then table.symbols[position.toNat]?
  else if (-position).toNat ≤ table.symbols.length then
    table.symbols[table.symbols.length - (-position).toNat]?
  else none

/-- The number of symbols handed out. -/
def size (table : SymbolTable) : Nat :=
  table.symbols.length

end SymbolTable

end CyclicCalls
