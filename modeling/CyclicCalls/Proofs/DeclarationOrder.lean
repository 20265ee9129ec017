import CyclicCalls.Proofs.DefinitionLines
import CyclicCalls.Proofs.ModuleContents
/-!
# The order of declarations

The declarations of a module come in the order of its outline. This is the order of the text but
for one thing: of a `try`, the outline takes the `else` and `finally` parts before the handlers,
while the text has the handlers first.

The two orders are compared by the lines of the definitions: `Outline.linesOf` in the order of
the outline, which is that of the declarations (`map_line_declarationsFrom`), and
`definedInBody` in the order of the text. They always hold the same lines, and where no line
occurs twice they agree exactly if no `try` of a scope has definitions both in its handlers and
in its `else` or `finally` (`unmixedBody`). `Arranged` says both, and is put together as the
statements are.

The lines in the order of the text rise, since the definitions of a text stand on rising lines. So
the declarations of a source come on rising lines exactly if it mixes no handlers in this way
(`declared_lines_rise_iff`). A module with a definition in a handler and one in the `else` after
it shows that they need not (`handler_declared_after_else`).
-/

set_option autoImplicit false

namespace CyclicCalls.Index

open Source Solution

/-! ## Lines in the order of the outline -/

namespace Outline

mutual

/-- The lines of the functions that a member of a scope declares. -/
def lines : Outline → List Nat
  | .function definition => [definition.line]
  | .classDef _ members => linesOf members
  | .importModules _ => []
  | .importFrom _ _ _ => []

/-- The lines of the functions that the members of a scope declare, in order. -/
def linesOf : List Outline → List Nat
  | [] => []
  | outline :: rest => outline.lines ++ linesOf rest

end

theorem linesOf_append (first second : List Outline) :
    linesOf (first ++ second) = linesOf first ++ linesOf second := by
  induction first with
  | nil => rfl
  | cons outline rest ih => rw [List.cons_append, linesOf, linesOf, ih, List.append_assoc]

end Outline

mutual

/-- The declarations of a scope have the lines of its outline. -/
theorem map_line_declarationsFrom (document : Document) (place : Place)
    (owner : Option ClassInfo) (member : Nat) :
    ∀ outlines : List Outline,
      (declarationsFrom document place owner member outlines).map (·.definition.line) =
        Outline.linesOf outlines
  | [] => rfl
  | outline :: rest => by
      rw [declarationsFrom, List.map_append, Outline.linesOf,
        map_line_declarationsOf document place owner member outline,
        map_line_declarationsFrom document place owner (member + 1) rest]

theorem map_line_declarationsOf (document : Document) (place : Place)
    (owner : Option ClassInfo) (member : Nat) :
    ∀ outline : Outline,
      (declarationsOf document place owner member outline).map (·.definition.line) =
        outline.lines
  | .function _ => rfl
  | .classDef definition members => by
      rw [declarationsOf_classDef, Outline.lines]
      exact map_line_declarationsFrom document (place.inside member definition.name) _ 0 members
  | .importModules _ => rfl
  | .importFrom _ _ _ => rfl

end

/-! ## Two orders of the same lines -/

/-- The first lines are the second ones in some order, and if no line occurs twice they are in
the same order exactly if the condition holds. -/
structure Arranged (declared defined : List Nat) (straight : Bool) : Prop where
  perm : declared.Perm defined
  eq_iff : defined.Nodup → (declared = defined ↔ straight = true)

namespace Arranged

theorem refl (lines : List Nat) : Arranged lines lines true :=
  ⟨.refl _, fun _ => ⟨fun _ => rfl, fun _ => rfl⟩⟩

/-- Parts that follow one another in both orders. -/
theorem append {declared defined others further : List Nat} {straight level : Bool}
    (first : Arranged declared defined straight) (second : Arranged others further level) :
    Arranged (declared ++ others) (defined ++ further) (straight && level) := by
  refine ⟨first.perm.append second.perm, fun distinct => ?_⟩
  obtain ⟨left, right, _⟩ := List.nodup_append.mp distinct
  rw [Bool.and_eq_true, ← first.eq_iff left, ← second.eq_iff right]
  constructor
  · intro same
    exact List.append_inj same first.perm.length_eq
  · rintro ⟨rfl, rfl⟩
    rfl

/-- Parts that change places are in the same order if one of them is empty. -/
theorem swap {declared defined others further : List Nat} {straight level : Bool}
    (first : Arranged declared defined straight) (second : Arranged others further level) :
    Arranged (others ++ declared) (defined ++ further)
      ((defined.isEmpty || further.isEmpty) && (straight && level)) := by
  have plain := first.append second
  refine ⟨List.perm_append_comm.trans plain.perm, fun distinct => ?_⟩
  rw [Bool.and_eq_true, ← plain.eq_iff distinct]
  cases defined with
  | nil =>
      obtain rfl := first.perm.eq_nil
      simp
  | cons line lines =>
      cases further with
      | nil =>
          obtain rfl := second.perm.eq_nil
          simp
      | cons next rest =>
          -- The two orders begin with a line of each of the two parts, which share none.
          refine ⟨fun same => ?_, fun both => nomatch both.1⟩
          cases others with
          | nil => exact nomatch second.perm.length_eq
          | cons head tail =>
              have apart := (List.nodup_append.mp distinct).2.2
              obtain ⟨rfl, _⟩ := List.cons.inj same
              exact absurd rfl
                (apart head List.mem_cons_self head (second.perm.mem_iff.mp List.mem_cons_self))

end Arranged

/-! ## Definitions in handlers and after them -/

mutual

/-- No `try` in the statement, or in a class in it, has definitions both in its handlers and in
its `else` or `finally`. -/
def unmixed : Stmt → Bool
  | .function _ => true
  | .classDef ⟨_, _, _, _, body, _⟩ => unmixedBody body
  | .importModules _ => true
  | .importFrom _ _ _ => true
  | .ifElse _ body orelse => unmixedBody body && unmixedBody orelse
  | .whileLoop _ body orelse => unmixedBody body && unmixedBody orelse
  | .forLoop _ _ body orelse => unmixedBody body && unmixedBody orelse
  | .withItems _ body => unmixedBody body
  | .tryBlock body handlers orelse finalBody =>
    unmixedBody body &&
      (((definedInHandlers handlers).isEmpty ||
          (definedInBody orelse ++ definedInBody finalBody).isEmpty) &&
        (unmixedHandlers handlers && (unmixedBody orelse && unmixedBody finalBody)))
  | .matchOn _ cases => unmixedCases cases
  | .simple _ => true

def unmixedBody : List Stmt → Bool
  | [] => true
  | statement :: rest => unmixed statement && unmixedBody rest

def unmixedHandlers : List (Handler Stmt) → Bool
  | [] => true
  | ⟨_, body⟩ :: rest => unmixedBody body && unmixedHandlers rest

def unmixedCases : List (MatchCase Stmt) → Bool
  | [] => true
  | ⟨_, _, body⟩ :: rest => unmixedBody body && unmixedCases rest

end

mutual

theorem arranged_ofStmt : ∀ statement : Stmt,
    Arranged (Outline.linesOf (Outline.ofStmt statement)) (definedIn statement) (unmixed statement)
  | .function definition => .refl [definition.line]
  | .classDef ⟨_, _, _, _, body, _⟩ => by
      rw [Outline.ofStmt, Outline.linesOf, Outline.lines, Outline.linesOf, List.append_nil]
      exact arranged_ofBody body
  | .importModules _ => .refl []
  | .importFrom _ _ _ => .refl []
  | .ifElse _ body orelse => by
      rw [Outline.ofStmt, Outline.linesOf_append]
      exact (arranged_ofBody body).append (arranged_ofBody orelse)
  | .whileLoop _ body orelse => by
      rw [Outline.ofStmt, Outline.linesOf_append]
      exact (arranged_ofBody body).append (arranged_ofBody orelse)
  | .forLoop _ _ body orelse => by
      rw [Outline.ofStmt, Outline.linesOf_append]
      exact (arranged_ofBody body).append (arranged_ofBody orelse)
  | .withItems _ body => arranged_ofBody body
  | .tryBlock body handlers orelse finalBody => by
      simp only [Outline.ofStmt, Outline.linesOf_append, List.append_assoc]
      rw [← List.append_assoc (Outline.linesOf (Outline.ofBody orelse))]
      exact (arranged_ofBody body).append ((arranged_ofHandlers handlers).swap
        ((arranged_ofBody orelse).append (arranged_ofBody finalBody)))
  | .matchOn _ cases => arranged_ofCases cases
  | .simple _ => .refl []

theorem arranged_ofBody : ∀ statements : List Stmt,
    Arranged (Outline.linesOf (Outline.ofBody statements)) (definedInBody statements)
      (unmixedBody statements)
  | [] => .refl []
  | statement :: rest => by
      rw [Outline.ofBody, Outline.linesOf_append]
      exact (arranged_ofStmt statement).append (arranged_ofBody rest)

theorem arranged_ofHandlers : ∀ handlers : List (Handler Stmt),
    Arranged (Outline.linesOf (Outline.ofHandlers handlers)) (definedInHandlers handlers)
      (unmixedHandlers handlers)
  | [] => .refl []
  | ⟨_, body⟩ :: rest => by
      rw [Outline.ofHandlers, Outline.linesOf_append]
      exact (arranged_ofBody body).append (arranged_ofHandlers rest)

theorem arranged_ofCases : ∀ cases : List (MatchCase Stmt),
    Arranged (Outline.linesOf (Outline.ofCases cases)) (definedInCases cases) (unmixedCases cases)
  | [] => .refl []
  | ⟨_, _, body⟩ :: rest => by
      rw [Outline.ofCases, Outline.linesOf_append]
      exact (arranged_ofBody body).append (arranged_ofCases rest)

end

/-! ## The declarations of a source -/

/-- **Declarations come in the order of the text unless handlers are mixed with what follows
them.** For every source that can be read, the lines of its declarations are those of its
definitions, which rise strictly in the order of the text; and the declarations themselves come
on rising lines exactly if no `try` of a scope has definitions both in its handlers and in its
`else` or `finally`. -/
theorem declared_lines_rise_iff {bytes : Bytes} {statements : List Stmt}
    (read : readBytes? bytes = some statements) (entry : Nat) (document : Document) :
    ((moduleInfo entry document statements).value.declarations.map
        (·.definition.line)).Perm (definedInBody statements) ∧
      (definedInBody statements).Pairwise (· < ·) ∧
      (((moduleInfo entry document statements).value.declarations.map
        (·.definition.line)).Pairwise (· < ·) ↔ unmixedBody statements = true) := by
  have declared : (moduleInfo entry document statements).value.declarations.map
      (·.definition.line) = Outline.linesOf (Outline.ofBody statements) :=
    map_line_declarationsFrom document { entry, moduleName := document.moduleName } none 0 _
  have arranged := arranged_ofBody statements
  have rising := definedInBody_rising read
  rw [declared, ← arranged.eq_iff (rising.imp Nat.ne_of_lt)]
  refine ⟨arranged.perm, rising, fun sorted => ?_, fun same => same ▸ rising⟩
  exact List.Perm.eq_of_pairwise (fun _ _ _ _ less more => absurd less (Nat.lt_asymm more))
    sorted rising arranged.perm

/-- A module `app`. -/
def appModule : Document :=
  ⟨⟨.here, ["app.py"]⟩, "app", false⟩

/-- The bytes of a text in ASCII. -/
def asciiBytes (text : String) : Bytes :=
  text.toList.map (fun c => c.toNat.toUInt8)

/-- A source with a method, and with a `try` that defines a function in a handler only. -/
def unmixedSource : Bytes :=
  asciiBytes ("class Store:\n    def load(self):\n        return read()\n" ++
    "try:\n    import fast\nexcept ImportError:\n    def read():\n        return None\n" ++
    "finally:\n    ready = True\n")

theorem declared_lines_rise_iff_unmixed : ∃ statements,
    readBytes? unmixedSource = some statements ∧
      ((moduleInfo 0 appModule statements).value.declarations.map
        (·.definition.line)).Pairwise (· < ·) := by
  have evaluated : (readBytes? unmixedSource).map unmixedBody = some true := by decide +kernel
  obtain ⟨statements, read, straight⟩ := Option.map_eq_some_iff.mp evaluated
  exact ⟨statements, read, (declared_lines_rise_iff read 0 appModule).2.2.mpr straight⟩

/-- A source with a `try` that defines a function in a handler and one in its `else`. -/
def mixedSource : Bytes :=
  asciiBytes ("try:\n    import fast\n" ++
    "except ImportError:\n    def load():\n        return slow()\n" ++
    "else:\n    def load_fast():\n        return fast.load()\n")

/-- **Declarations need not come in the order of the text.** The function in the `else`, on line
seven, is declared before the one in the handler, on line four. -/
theorem handler_declared_after_else : ∃ statements,
    readBytes? mixedSource = some statements ∧
      (moduleInfo 0 appModule statements).value.declarations.map
        (fun declaration => (declaration.definition.name, declaration.definition.line)) =
        [("load_fast", 7), ("load", 4)] := by
  have evaluated : (readBytes? mixedSource).map (fun statements =>
      (moduleInfo 0 appModule statements).value.declarations.map
        (fun declaration => (declaration.definition.name, declaration.definition.line))) =
      some [("load_fast", 7), ("load", 4)] := by decide +kernel
  exact Option.map_eq_some_iff.mp evaluated

end CyclicCalls.Index
