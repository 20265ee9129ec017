import CyclicCalls.Proofs.ModuleContents
import CyclicCalls.Proofs.TreePositions
import Mathlib.Data.List.Infix
import Mathlib.Data.List.Perm.Basic
/-!
# Where declarations stand

The declarations of a module are collected from its outline, which has no positions and takes
the parts of a `try` in an order of its own. The tree says what is to be collected: a function
definition is declared when every node around it is a class, a block that belongs to the scope
around it, or a clause of such a block (`Node.function?`, `Node.keepsScope`), and its class is
the one at the last beginning of its position at which a class stands (`Node.classAround?`).

A `Survey` says that the two agree: the declarations stand, each once, at the positions at which
they are to be found, and each has the class made by the class definition at the position of
the innermost class around it. Classes are known by the members of the scopes they are in, so a
survey also bounds the numbers of these members; this keeps the classes of two parts apart
(`Located.append`).

Surveys are put together as trees are (`Surveyed.append`, `Surveyed.block`,
`Surveyed.function`, `Surveyed.classDef`) and do not depend on the order of the declarations
(`Surveyed.perm`), so that the handlers of a `try` may be taken last. The declarations of every
statement are therefore surveyed, by induction over statements, bodies, handlers and cases
(`surveyed_ofStmt`, `surveyed_ofBody`).
-/

set_option autoImplicit false

namespace CyclicCalls.Source.Node

/-- The function that a node defines, if it is a definition of one. -/
def function? : Node → Option (FunctionDef Stmt)
  | .stmt (.function definition) => some definition
  | _ => none

/-- Whether the functions defined in a node are declared: it is a class, a block that belongs to
the scope around it, or a clause of such a block. -/
def keepsScope : Node → Bool
  | .stmt (.classDef _) => true
  | .stmt (.ifElse _ _ _) => true
  | .stmt (.whileLoop _ _ _) => true
  | .stmt (.forLoop _ _ _ _) => true
  | .stmt (.withItems _ _) => true
  | .stmt (.tryBlock _ _ _ _) => true
  | .stmt (.matchOn _ _) => true
  | .handler _ => true
  | .matchCase _ => true
  | _ => false

theorem function?_eq_some_iff {node : Node} {definition : FunctionDef Stmt} :
    node.function? = some definition ↔ node = .stmt (.function definition) := by
  unfold function?
  split
  · rw [Option.some.injEq, stmt.injEq, Stmt.function.injEq]
  · rename_i other
    exact ⟨(nomatch ·), fun same => absurd same (other definition)⟩

theorem function?_of_keepsScope {node : Node} (keeps : node.keepsScope = true) :
    node.function? = none := by
  unfold function?
  split
  · exact nomatch keeps
  · rfl

/-- Nothing is declared by the node or in it. -/
def Silent (node : Node) : Prop :=
  node.function? = none ∧ node.keepsScope = false

theorem silent_exprs (expressions : List Expr) : ∀ node ∈ exprs expressions, node.Silent := by
  intro node member
  obtain ⟨expression, _, rfl⟩ := List.mem_map.mp member
  exact ⟨rfl, rfl⟩

theorem silent_optional (expression : Option Expr) :
    ∀ node ∈ optional expression, node.Silent :=
  silent_exprs expression.toList

theorem silent_items (items : List (Expr × Option Expr)) :
    ∀ node ∈ items.flatMap (fun item => .expr item.1 :: optional item.2), node.Silent := by
  intro node member
  obtain ⟨item, _, among⟩ := List.mem_flatMap.mp member
  rcases List.mem_cons.mp among with rfl | among
  · exact ⟨rfl, rfl⟩
  · exact silent_optional item.2 node among

/-- The position of the innermost class around a position: the last one of its proper
beginnings at which a class stands. -/
def classAround? (nodes : List Node) (position : Position) : Option Position :=
  (position.inits.dropLast.filter (fun around => (at? nodes around).any isClass)).getLast?

/-- The proper beginnings of a position that goes on. -/
theorem dropLast_inits_cons (number : Nat) (rest : Position) :
    (number :: rest).inits.dropLast = [] :: rest.inits.dropLast.map (number :: ·) := by
  have more : rest.inits.map (number :: ·) ≠ [] :=
    List.ne_nil_of_length_eq_add_one ((List.length_map _).trans (List.length_inits rest))
  rw [List.inits_cons, List.dropLast_cons_of_ne_nil more, List.map_dropLast]

theorem classAround?_cons (nodes : List Node) (number : Nat) {rest : Position}
    (inward : rest ≠ []) :
    classAround? nodes (number :: rest) =
      nodes[number]?.bind (fun node =>
        ((classAround? node.children rest).map (number :: ·)).or
          (if node.isClass then some [number] else none)) := by
  obtain ⟨first, last, rfl⟩ := List.exists_cons_of_ne_nil inward
  unfold classAround?
  rw [dropLast_inits_cons number, dropLast_inits_cons first]
  generalize last.inits.dropLast = beginnings
  cases listed : nodes[number]? with
  | none => simp [at?_cons, listed, List.filter_map, Function.comp_def]
  | some node =>
      -- A class around is found among the children, or it is the node itself.
      have below : (beginnings.map (number :: first :: ·)).filter
            (fun around => (at? nodes around).any isClass) =
          ((beginnings.map (first :: ·)).filter
            (fun around => (at? node.children around).any isClass)).map (number :: ·) := by
        simp [List.filter_map, Function.comp_def, at?_cons nodes, listed]
      have self : at? nodes [number] = some node := by
        rw [at?_cons, listed, Option.bind_some, if_pos rfl]
      rw [List.map_cons, List.map_map, List.filter_cons_of_neg (by simp), Option.bind_some,
        List.filter_cons_of_neg (a := []) (by simp), ← List.getLast?_map, ← below,
        List.filter_cons, self, Option.any_some]
      split
      · exact List.getLast?_cons.trans Option.or_some.symm
      · rw [Option.or_none]
        rfl

theorem classAround?_append_left {first second : List Node} {number : Nat} {rest : Position}
    (inside : number < first.length) :
    classAround? (first ++ second) (number :: rest) = classAround? first (number :: rest) := by
  by_cases inward : rest = []
  · subst inward
    rfl
  · rw [classAround?_cons _ _ inward, classAround?_cons _ _ inward,
      List.getElem?_append_left inside]

theorem classAround?_shift (first second : List Node) (position : Position) :
    classAround? (first ++ second) (position.shift first.length) =
      (classAround? second position).map (Position.shift first.length) := by
  cases position with
  | nil => rfl
  | cons number rest =>
      by_cases inward : rest = []
      · subst inward
        rfl
      · rw [Position.shift, classAround?_cons _ _ inward, classAround?_cons _ _ inward,
          List.getElem?_append_right (Nat.le_add_right _ _), Nat.add_sub_cancel_left,
          Option.map_bind]
        congr 1
        funext node
        rw [Function.comp_apply, Option.map_or, Option.map_map]
        congr 1
        split <;> rfl

end CyclicCalls.Source.Node

namespace CyclicCalls.Index

open Source Solution

/-! ## Surveys of a scope -/

/-- A class is made by a class definition somewhere in the scope of a place. -/
def MadeBy (place : Place) (definition : ClassDef Stmt) (found : ClassInfo) : Prop :=
  ∃ home member, home.entry = place.entry ∧ home.moduleName = place.moduleName ∧
    found = classInfo home member definition (Outline.ofBody definition.body)

/-- The class of a declaration is the one at the position of the innermost class around, or the
given one if there is none around. -/
def OwnedBy (owner : Option ClassInfo) (classes : List (Position × ClassInfo)) :
    Option Position → Option ClassInfo → Prop
  | none, found => found = owner
  | some position, found => ∃ info, (position, info) ∈ classes ∧ found = some info

theorem OwnedBy.mono {owner : Option ClassInfo} {classes others : List (Position × ClassInfo)}
    {around : Option Position} {found : Option ClassInfo}
    (owned : OwnedBy owner classes around found) (more : classes ⊆ others) :
    OwnedBy owner others around found := by
  cases around with
  | none => exact owned
  | some position =>
      obtain ⟨info, among, own⟩ := owned
      exact ⟨info, more among, own⟩

theorem OwnedBy.map {owner : Option ClassInfo} {classes : List (Position × ClassInfo)}
    {around : Option Position} {found : Option ClassInfo}
    (owned : OwnedBy owner classes around found) (move : Position → Position) :
    OwnedBy owner (classes.map (Prod.map move id)) (around.map move) found := by
  cases around with
  | none => exact owned
  | some position =>
      obtain ⟨info, among, own⟩ := owned
      exact ⟨info, List.mem_map_of_mem (f := Prod.map move id) among, own⟩

/-- The classes of a scope with their positions: each is made by the class definition at its
position, and no two of them are one. The numbers `lower` and `upper` bound the members of the
scope that they are in. -/
structure Located (place : Place) (lower upper : Nat) (nodes : List Node)
    (classes : List (Position × ClassInfo)) : Prop where
  made : ∀ entry ∈ classes, ∃ definition,
    Node.at? nodes entry.1 = some (.stmt (.classDef definition)) ∧ MadeBy place definition entry.2
  within : ∀ entry ∈ classes, ∃ member rest, lower ≤ member ∧ member < upper ∧
    entry.2.id.position = place.position ++ member :: rest
  distinct : classes.Pairwise (fun one other => one.1 ≠ other.1 ∧ one.2.id ≠ other.2.id)

/-- The declarations of a scope stand at the positions at which they are to be found, and each
has the innermost class around it. -/
structure Survey (place : Place) (owner : Option ClassInfo) (lower upper : Nat)
    (nodes : List Node) (declarations : List Declaration) (positions : List Position)
    (classes : List (Position × ClassInfo)) : Prop where
  tracks : Node.Tracks Node.keepsScope Node.function? nodes positions
    (declarations.map Declaration.definition)
  owners : List.Forall₂ (fun position declaration =>
    OwnedBy owner classes (Node.classAround? nodes position) declaration.owner)
    positions declarations
  located : Located place lower upper nodes classes

namespace Located

variable {place : Place} {lower upper : Nat} {nodes : List Node}
  {classes : List (Position × ClassInfo)}

theorem nil (place : Place) (lower upper : Nat) (nodes : List Node) :
    Located place lower upper nodes [] :=
  ⟨(fun _ member => nomatch member), (fun _ member => nomatch member), .nil⟩

theorem append {first second : List Node} {middle below above least most : Nat}
    {others : List (Position × ClassInfo)}
    (left : Located place lower middle first classes)
    (right : Located place below above second others)
    (apart : middle ≤ below ∨ above ≤ lower)
    (range : least ≤ lower ∧ least ≤ below ∧ middle ≤ most ∧ above ≤ most) :
    Located place least most (first ++ second)
      (classes ++ others.map (Prod.map (Position.shift first.length) id)) := by
  have inside {entry : Position × ClassInfo} (among : entry ∈ classes) :
      ∃ number rest, entry.1 = number :: rest ∧ number < first.length := by
    obtain ⟨definition, stands, _⟩ := left.made entry among
    exact Node.exists_cons_of_at? stands
  refine ⟨fun entry among => ?_, fun entry among => ?_, List.pairwise_append.mpr ⟨left.distinct,
    List.pairwise_map.mpr (right.distinct.imp fun differ =>
      ⟨fun same => differ.1 (Position.shift_injective _ same), differ.2⟩), ?_⟩⟩
  · rcases List.mem_append.mp among with here | there
    · obtain ⟨number, rest, begins, bound⟩ := inside here
      obtain ⟨definition, stands, made⟩ := left.made entry here
      refine ⟨definition, ?_, made⟩
      rw [begins, Node.at?_append_left bound, ← begins, stands]
    · obtain ⟨original, listed, rfl⟩ := List.mem_map.mp there
      obtain ⟨definition, stands, made⟩ := right.made original listed
      exact ⟨definition, (Node.at?_shift first second original.1).trans stands, made⟩
  · rcases List.mem_append.mp among with here | there
    · obtain ⟨member, rest, least, bound, named⟩ := left.within entry here
      exact ⟨member, rest, by omega, by omega, named⟩
    · obtain ⟨original, listed, rfl⟩ := List.mem_map.mp there
      obtain ⟨member, rest, least, bound, named⟩ := right.within original listed
      exact ⟨member, rest, by omega, by omega, named⟩
  · intro entry here other there
    obtain ⟨original, listed, rfl⟩ := List.mem_map.mp there
    constructor
    · intro same
      obtain ⟨number, rest, begins, bound⟩ := inside here
      rw [begins] at same
      cases shifted : original.1 with
      | nil =>
          rw [Prod.map_fst, shifted] at same
          exact nomatch same
      | cons count _ =>
          rw [Prod.map_fst, shifted, Position.shift, List.cons.injEq] at same
          omega
    · intro same
      obtain ⟨member, rest, least, bound, named⟩ := left.within entry here
      obtain ⟨another, tail, least', bound', named'⟩ := right.within original listed
      have joined := congrArg ClassId.position same
      rw [Prod.map_snd, id, named, named', List.append_cancel_left_eq, List.cons.injEq] at joined
      omega

/-- The classes of a node that is no class are those of its children. -/
theorem node {node : Node} (below : Located place lower upper node.children classes) :
    Located place lower upper [node] (classes.map (Prod.map (0 :: ·) id)) := by
  refine ⟨fun entry among => ?_, fun entry among => ?_,
    List.pairwise_map.mpr (below.distinct.imp fun differ =>
      ⟨fun same => differ.1 (List.cons_injective same), differ.2⟩)⟩
  · obtain ⟨original, listed, rfl⟩ := List.mem_map.mp among
    obtain ⟨definition, stands, made⟩ := below.made original listed
    exact ⟨definition, (Node.at?_singleton (Node.ne_nil_of_at? stands)).trans stands, made⟩
  · obtain ⟨original, listed, rfl⟩ := List.mem_map.mp among
    exact below.within original listed

/-- The classes of a class definition are the class itself and those of its body. -/
theorem classDef {definition : ClassDef Stmt} {member most : Nat}
    (below : Located (place.inside member definition.name) 0 most
      (Node.stmt (.classDef definition)).children classes) :
    Located place member (member + 1) [.stmt (.classDef definition)]
      (([0], classInfo place member definition (Outline.ofBody definition.body)) ::
        classes.map (Prod.map (0 :: ·) id)) := by
  have inner := below.node
  refine ⟨fun entry among => ?_, fun entry among => ?_, List.pairwise_cons.mpr ⟨?_, inner.distinct⟩⟩
  · rcases List.mem_cons.mp among with rfl | listed
    · exact ⟨definition, rfl, place, member, rfl, rfl, rfl⟩
    · exact inner.made entry listed
  · rcases List.mem_cons.mp among with rfl | listed
    · exact ⟨member, [], Nat.le_refl _, Nat.lt_succ_self _, rfl⟩
    · obtain ⟨next, rest, _, _, named⟩ := inner.within entry listed
      exact ⟨member, next :: rest, Nat.le_refl _, Nat.lt_succ_self _,
        named.trans (List.append_assoc _ _ _)⟩
  · intro entry listed
    obtain ⟨original, among, rfl⟩ := List.mem_map.mp listed
    constructor
    · obtain ⟨_, stands, _⟩ := below.made original among
      intro same
      exact Node.ne_nil_of_at? stands (List.cons.inj same).2.symm
    · intro same
      obtain ⟨next, rest, _, _, named⟩ := below.within original among
      have joined := congrArg (fun id => id.position.length) same
      simp only [Prod.map_snd, id, named] at joined
      simp [classInfo, Place.inside] at joined

end Located

/-- The declarations of a scope are surveyed. -/
def Surveyed (place : Place) (owner : Option ClassInfo) (lower upper : Nat) (nodes : List Node)
    (declarations : List Declaration) : Prop :=
  ∃ positions classes, Survey place owner lower upper nodes declarations positions classes

namespace Surveyed

variable {place : Place} {owner : Option ClassInfo} {lower upper : Nat} {nodes : List Node}
  {declarations : List Declaration}

/-- Nodes that define nothing and in which nothing is declared. -/
theorem none (silent : ∀ node ∈ nodes, node.Silent) :
    Surveyed place owner lower upper nodes [] :=
  ⟨[], [], .none silent, .nil, .nil place lower upper nodes⟩

theorem append {first second : List Node} {middle below above least most : Nat}
    {others : List Declaration} (left : Surveyed place owner lower middle first declarations)
    (right : Surveyed place owner below above second others)
    (apart : middle ≤ below ∨ above ≤ lower)
    (range : least ≤ lower ∧ least ≤ below ∧ middle ≤ most ∧ above ≤ most) :
    Surveyed place owner least most (first ++ second) (declarations ++ others) := by
  obtain ⟨positions, classes, left⟩ := left
  obtain ⟨further, more, right⟩ := right
  refine ⟨positions ++ further.map (Position.shift first.length), _, ?_,
    List.rel_append ?_ (List.forall₂_map_left_iff.mpr ?_),
    left.located.append right.located apart range⟩
  · rw [List.map_append]
    exact left.tracks.append right.tracks
  · refine ((List.forall₂_and_left _ _).mpr
      ⟨fun _ => left.tracks.exists_cons, left.owners⟩).imp ?_
    rintro position declaration ⟨⟨number, rest, rfl, bound⟩, owned⟩
    rw [Node.classAround?_append_left bound]
    exact owned.mono (List.subset_append_left _ _)
  · refine right.owners.imp fun position declaration owned => ?_
    rw [Node.classAround?_shift]
    exact (owned.map _).mono (List.subset_append_right _ _)

theorem after {first : List Node} (survey : Surveyed place owner lower upper nodes declarations)
    (silent : ∀ node ∈ first, node.Silent) :
    Surveyed place owner lower upper (first ++ nodes) declarations := by
  have before : Surveyed place owner (max lower upper) (min lower upper) first [] := none silent
  exact before.append survey (by omega) (by omega)

theorem before {last : List Node} (survey : Surveyed place owner lower upper nodes declarations)
    (silent : ∀ node ∈ last, node.Silent) :
    Surveyed place owner lower upper (nodes ++ last) declarations := by
  have after : Surveyed place owner (max lower upper) (min lower upper) last [] := none silent
  have joined : Surveyed place owner lower upper (nodes ++ last) (declarations ++ []) :=
    survey.append after (by omega) (by omega)
  rwa [List.append_nil] at joined

/-- The order of the declarations does not matter. -/
theorem perm {others : List Declaration}
    (survey : Surveyed place owner lower upper nodes declarations)
    (same : declarations.Perm others) : Surveyed place owner lower upper nodes others := by
  obtain ⟨positions, classes, survey⟩ := survey
  have both := List.Forall₂.mp (fun _ _ stands owned => And.intro stands owned)
    (List.forall₂_map_right_iff.mp survey.tracks.values) survey.owners
  obtain ⟨moved, paired, shuffled⟩ := List.perm_comp_forall₂ same.symm both.flip
  refine ⟨moved, classes, ⟨shuffled.nodup_iff.mpr survey.tracks.distinct, fun position => ?_,
    List.forall₂_map_right_iff.mpr (paired.flip.imp fun _ _ pair => pair.1)⟩,
    paired.flip.imp fun _ _ pair => pair.2, survey.located⟩
  rw [shuffled.mem_iff, survey.tracks.exact]

/-- What is declared in a block that belongs to the scope. -/
theorem block {node : Node} (keeps : node.keepsScope = true) (plain : node.isClass = false)
    (survey : Surveyed place owner lower upper node.children declarations) :
    Surveyed place owner lower upper [node] declarations := by
  obtain ⟨positions, classes, survey⟩ := survey
  have tracks := Node.Tracks.node (fun _ => survey.tracks)
  rw [Node.function?_of_keepsScope keeps, if_pos keeps, if_pos keeps] at tracks
  refine ⟨positions.map (0 :: ·), classes.map (Prod.map (0 :: ·) id), tracks,
    List.forall₂_map_left_iff.mpr ?_, survey.located.node⟩
  refine ((List.forall₂_and_left _ _).mpr
    ⟨fun _ => survey.tracks.exists_cons, survey.owners⟩).imp ?_
  rintro position declaration ⟨⟨number, rest, rfl, _⟩, owned⟩
  rw [Node.classAround?_cons _ _ (List.cons_ne_nil _ _), List.getElem?_cons_zero, Option.bind_some,
    plain, if_neg Bool.false_ne_true, Option.or_none]
  exact owned.map _

/-- A function is declared, and nothing in it. -/
theorem function (document : Document) (definition : FunctionDef Stmt) :
    Surveyed place owner lower upper [.stmt (.function definition)]
      [⟨document, definition, owner⟩] := by
  have tracks : Node.Tracks Node.keepsScope Node.function? [.stmt (.function definition)] [[0]]
      [definition] := @Node.Tracks.node _ _ _ (.stmt (.function definition)) [] [] nofun
  exact ⟨[[0]], [], tracks, .cons rfl .nil, .nil place lower upper _⟩

/-- What is declared in a class belongs to it, or to a class inside. -/
theorem classDef {definition : ClassDef Stmt} {member most : Nat}
    (survey : Surveyed (place.inside member definition.name)
      (some (classInfo place member definition (Outline.ofBody definition.body))) 0 most
      (Node.stmt (.classDef definition)).children declarations) :
    Surveyed place owner member (member + 1) [.stmt (.classDef definition)] declarations := by
  obtain ⟨positions, classes, survey⟩ := survey
  refine ⟨positions.map (0 :: ·), _, Node.Tracks.node (fun _ => survey.tracks),
    List.forall₂_map_left_iff.mpr ?_, survey.located.classDef⟩
  refine ((List.forall₂_and_left _ _).mpr
    ⟨fun _ => survey.tracks.exists_cons, survey.owners⟩).imp ?_
  rintro position declaration ⟨⟨number, rest, rfl, _⟩, owned⟩
  rw [Node.classAround?_cons _ _ (List.cons_ne_nil _ _), List.getElem?_cons_zero, Option.bind_some]
  cases around : Node.classAround? _ (number :: rest) with
  | none =>
      rw [around] at owned
      exact ⟨_, List.mem_cons_self, owned⟩
  | some outer =>
      rw [around] at owned
      obtain ⟨info, among, own⟩ := owned
      exact ⟨info, List.mem_cons_of_mem _ (List.mem_map_of_mem (f := Prod.map (0 :: ·) id) among),
        own⟩

end Surveyed

/-! ## The declarations of statements -/

theorem declarationsFrom_append (document : Document) (place : Place) (owner : Option ClassInfo)
    (member : Nat) (first second : List Outline) :
    declarationsFrom document place owner member (first ++ second) =
      declarationsFrom document place owner member first ++
        declarationsFrom document place owner (member + first.length) second := by
  induction first generalizing member with
  | nil => rfl
  | cons outline rest ih =>
      rw [List.cons_append, declarationsFrom, ih, declarationsFrom, List.append_assoc,
        List.length_cons, Nat.add_right_comm member, Nat.add_assoc member]

/-- The declarations that outlines make are surveyed, as members of a scope from the given one
on. -/
def SurveyedAs (document : Document) (nodes : List Node) (outlines : List Outline) : Prop :=
  ∀ place owner member, Surveyed place owner member (member + outlines.length) nodes
    (declarationsFrom document place owner member outlines)

namespace SurveyedAs

variable {document : Document} {first second nodes : List Node}
  {outlines others : List Outline}

theorem append (left : SurveyedAs document first outlines)
    (right : SurveyedAs document second others) :
    SurveyedAs document (first ++ second) (outlines ++ others) := by
  intro place owner member
  rw [declarationsFrom_append, List.length_append]
  exact (left place owner member).append (right place owner (member + outlines.length))
    (.inl (Nat.le_refl _)) (by omega)

/-- The nodes may stand in the other order. -/
theorem append_swapped (left : SurveyedAs document first outlines)
    (right : SurveyedAs document second others) :
    SurveyedAs document (second ++ first) (outlines ++ others) := by
  intro place owner member
  rw [declarationsFrom_append, List.length_append]
  exact ((right place owner (member + outlines.length)).append (left place owner member)
    (.inr (Nat.le_refl _)) (by omega)).perm List.perm_append_comm

theorem block {node : Node} (inside : SurveyedAs document node.children outlines)
    (keeps : node.keepsScope = true) (plain : node.isClass = false) :
    SurveyedAs document [node] outlines :=
  fun place owner member => (inside place owner member).block keeps plain

theorem after (inside : SurveyedAs document nodes outlines)
    (silent : ∀ node ∈ first, node.Silent) : SurveyedAs document (first ++ nodes) outlines :=
  fun place owner member => (inside place owner member).after silent

theorem none (silent : ∀ node ∈ nodes, node.Silent) : SurveyedAs document nodes [] :=
  fun _ _ _ => .none silent

end SurveyedAs

mutual

/-- The declarations of a statement are surveyed. -/
theorem surveyed_ofStmt (document : Document) :
    ∀ statement : Stmt, SurveyedAs document [.stmt statement] (Outline.ofStmt statement)
  | .function definition => fun _ _ _ => .function document definition
  | .classDef ⟨line, name, bases, keywords, body, decorators⟩ => by
      intro place owner member
      rw [Outline.ofStmt, declarationsFrom, declarationsOf_classDef, declarationsFrom,
        List.append_nil]
      have inside := surveyed_ofBody document body (place.inside member name)
        (some (classInfo place member ⟨line, name, bases, keywords, body, decorators⟩
          (Outline.ofBody body))) 0
      refine .classDef (((inside.after ?_).before (Node.silent_exprs decorators)))
      intro node among
      rcases List.mem_append.mp among with base | keyword
      · exact Node.silent_exprs bases node base
      · exact Node.silent_exprs keywords node keyword
  | .importModules _ => fun _ _ _ => .none (List.forall_mem_singleton.mpr ⟨rfl, rfl⟩)
  | .importFrom _ _ _ => fun _ _ _ => .none (List.forall_mem_singleton.mpr ⟨rfl, rfl⟩)
  | .ifElse test body orelse =>
      (((surveyed_ofBody document body).append (surveyed_ofBody document orelse)).after
        (Node.silent_exprs [test])).block rfl rfl
  | .whileLoop test body orelse =>
      (((surveyed_ofBody document body).append (surveyed_ofBody document orelse)).after
        (Node.silent_exprs [test])).block rfl rfl
  | .forLoop target iterated body orelse =>
      (((surveyed_ofBody document body).append (surveyed_ofBody document orelse)).after
        (Node.silent_exprs [target, iterated])).block rfl rfl
  | .withItems items body =>
      ((surveyed_ofBody document body).after (Node.silent_items items)).block rfl rfl
  | .tryBlock body handlers orelse finalBody => by
      -- The handlers are taken after the other bodies, but stand before two of them.
      have last := (surveyed_ofBody document orelse).append (surveyed_ofBody document finalBody)
      have clauses := last.append_swapped (surveyed_ofHandlers document handlers)
      have whole := (surveyed_ofBody document body).append clauses
      refine SurveyedAs.block ?_ rfl rfl
      rw [Outline.ofStmt]
      simpa only [Node.children, Node.ofStmt, List.append_assoc] using whole
  | .matchOn subject cases =>
      ((surveyed_ofCases document cases).after (Node.silent_exprs [subject])).block rfl rfl
  | .simple _ => .none (List.forall_mem_singleton.mpr ⟨rfl, rfl⟩)

/-- The declarations of the statements of a body are surveyed. -/
theorem surveyed_ofBody (document : Document) :
    ∀ statements : List Stmt,
      SurveyedAs document (Node.stmts statements) (Outline.ofBody statements)
  | [] => .none nofun
  | statement :: rest =>
      (surveyed_ofStmt document statement).append (surveyed_ofBody document rest)

/-- The declarations of the handlers of a `try` are surveyed. -/
theorem surveyed_ofHandlers (document : Document) :
    ∀ handlers : List (Handler Stmt),
      SurveyedAs document (handlers.map .handler) (Outline.ofHandlers handlers)
  | [] => .none nofun
  | ⟨type, body⟩ :: rest =>
      (((surveyed_ofBody document body).after (Node.silent_optional type)).block rfl rfl).append
        (surveyed_ofHandlers document rest)

/-- The declarations of the cases of a `match` are surveyed. -/
theorem surveyed_ofCases (document : Document) :
    ∀ cases : List (MatchCase Stmt),
      SurveyedAs document (cases.map .matchCase) (Outline.ofCases cases)
  | [] => .none nofun
  | ⟨_, guard, body⟩ :: rest =>
      (((surveyed_ofBody document body).after (List.forall_mem_cons.mpr
        ⟨⟨rfl, rfl⟩, Node.silent_optional guard⟩)).block rfl rfl).append
        (surveyed_ofCases document rest)

end

end CyclicCalls.Index
