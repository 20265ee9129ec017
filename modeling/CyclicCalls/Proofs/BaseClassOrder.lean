import CyclicCalls.Proofs.GuardedResolution
import Mathlib.Logic.Relation
/-!
# The order of base classes

A class is looked up together with its base classes, theirs before the next, each class once. As
a recursion this is: visit a class, then its base classes from left to right, and skip a class
that was visited before, with one record of visited classes for the whole search (`Preorder`).
`ancestors` works instead through a list of classes still to be visited. Both give the same order
(`preorder_ancestorsFrom`), because searching one list after another is searching the lists put
together (`Preorder.split`).

What the order holds follows from the recursion: no class twice, all base classes of each class,
and nothing that is not reached through base classes. That a class is in the order as soon as one
at its place is rests on what places are. The documents that were entered have one class at each
place at most (`classAt?`), and resolution finds no other classes (`handedOn_placed`).
-/

set_option autoImplicit false

namespace CyclicCalls

open Source Solution Index

/-! ## Places of classes -/

namespace Index

/-- The class at a position of an outline: the members that lead to it, from the outermost one. -/
def classWithin? (place : Place) (outlines : List Outline) : List Nat → Option ClassInfo
  | [] => none
  | member :: deeper =>
    match outlines[member]? with
    | some (.classDef definition members) =>
      if deeper.isEmpty then some (classInfo place member definition members)
      else classWithin? (place.inside member definition.name) members deeper
    | _ => none

/-- The class at a place, when the given documents are entered. -/
def classAt? (reads : List ReadDocument) (id : ClassId) : Option ClassInfo := do
  let read ← reads[id.entry]?
  classWithin? { entry := id.entry, moduleName := read.document.moduleName }
    (Outline.ofBody read.statements) id.position

/-- A class knows its place. -/
theorem id_of_classWithin? {place : Place} {outlines : List Outline} {position : List Nat}
    {found : ClassInfo} (stands : classWithin? place outlines position = some found) :
    found.id = ⟨place.entry, place.position ++ position⟩ := by
  induction position generalizing place outlines with
  | nil => cases stands
  | cons member deeper ih =>
      rw [classWithin?] at stands
      split at stands
      · rename_i definition members bound
        split at stands
        · rename_i last
          cases stands
          rw [List.isEmpty_iff.mp last]
          rfl
        · rw [ih stands]
          simp [Place.inside]
      · cases stands

/-- A class found in the outline of a document is the one at its place. -/
theorem classAt?_of_classWithin? {reads : List ReadDocument} {entry : Nat} {read : ReadDocument}
    {position : List Nat} {found : ClassInfo} (entered : reads[entry]? = some read)
    (within : classWithin? { entry, moduleName := read.document.moduleName }
      (Outline.ofBody read.statements) position = some found) :
    classAt? reads found.id = some found := by
  have known : found.id = ⟨entry, position⟩ := id_of_classWithin? within
  rw [classAt?, known, entered]
  exact within

theorem id_of_classAt? {reads : List ReadDocument} {id : ClassId} {found : ClassInfo}
    (stands : classAt? reads id = some found) : found.id = id := by
  obtain ⟨read, _, within⟩ := Option.bind_eq_some_iff.mp stands
  exact id_of_classWithin? within

/-- There is one class at each place. -/
theorem eq_of_id_eq {reads : List ReadDocument} {one other : ClassInfo}
    (first : classAt? reads one.id = some one) (second : classAt? reads other.id = some other)
    (same : one.id = other.id) : one = other := by
  rw [same, second] at first
  exact (Option.some.inj first).symm

/-- A class of a scope stands at a member of the scope. -/
theorem exists_classWithin?_of_mem {place : Place} {outlines : List Outline} {name : String}
    {found : ClassInfo} (among : (name, found) ∈ classesFrom place 0 outlines) :
    ∃ member, classWithin? place outlines [member] = some found := by
  obtain ⟨member, definition, members, stands, rfl⟩ := exists_of_mem_classesFrom among
  refine ⟨member, ?_⟩
  rw [classWithin?, stands, Nat.zero_add]
  rfl

/-- A class inside a class stands one member further down. -/
theorem exists_classWithin?_nested {place : Place} {outlines : List Outline} {position : List Nat}
    {found inner : ClassInfo} {name : String}
    (stands : classWithin? place outlines position = some found)
    (bound : found.nested.find? name = some inner) :
    ∃ member, classWithin? place outlines (position ++ [member]) = some inner := by
  induction position generalizing place outlines with
  | nil => cases stands
  | cons member deeper ih =>
      rw [classWithin?] at stands
      split at stands
      · rename_i definition members outer
        split at stands
        · rename_i last
          cases stands
          obtain ⟨further, below⟩ :=
            exists_classWithin?_of_mem (Bindings.mem_of_find?_ofList bound)
          refine ⟨further, ?_⟩
          rw [List.isEmpty_iff.mp last]
          show classWithin? place outlines [member, further] = some inner
          rw [classWithin?, outer]
          exact below
        · obtain ⟨further, below⟩ := ih stands
          refine ⟨further, ?_⟩
          rw [List.cons_append, classWithin?, outer]
          simpa using below
      · cases stands

end Index

namespace Resolve

/-- A class is the one at its place. Nothing is said of functions and modules. -/
def Entity.Placed (reads : List ReadDocument) : Entity → Prop
  | .class found => classAt? reads found.id = some found
  | _ => True

/-- The classes that a module of the index declares are at their places. -/
theorem classAt?_of_module? {reads : List ReadDocument} {name bound : String} {home : ModuleInfo}
    {found : ClassInfo} (listed : (SolutionIndex.addAll reads {}).value.module? name = some home)
    (declared : home.classes.find? bound = some found) :
    classAt? reads found.id = some found := by
  obtain ⟨number, held⟩ := (SolutionIndex.proper_addAll reads).found name home listed
  obtain ⟨entry, stands⟩ := List.mem_iff_getElem?.mp (SolutionIndex.mem_byDocument.mp held)
  rw [getElem?_modulesFrom, Nat.zero_add] at stands
  obtain ⟨read, entered, made⟩ := Option.map_eq_some_iff.mp stands
  cases made
  obtain ⟨member, within⟩ := exists_classWithin?_of_mem (Bindings.mem_of_find?_ofList declared)
  exact classAt?_of_classWithin? entered within

/-- Resolution finds no class but those at their places. -/
theorem handedOn_placed (reads : List ReadDocument) :
    HandedOn (SolutionIndex.addAll reads {}).value (Entity.Placed reads) where
  modules _ := trivial
  bound name home listed :=
    { classes := fun _ _ declared => classAt?_of_module? listed declared
      functions := fun _ _ => trivial }
  nested found name inner placed bound := by
    obtain ⟨read, entered, within⟩ := Option.bind_eq_some_iff.mp placed
    obtain ⟨member, inside⟩ := exists_classWithin?_nested within bound
    exact classAt?_of_classWithin? entered inside

/-! ## The recursive search -/

/-- The search through the classes of a list, from left to right: a class that was visited is
skipped, and another one is visited and followed by its base classes. The search goes from the
classes visited before it to those visited after it, and gives the classes it visits in order. -/
inductive Preorder (bases : ClassInfo → List ClassInfo) :
    List ClassId → List ClassInfo → List ClassInfo → List ClassId → Prop
  | done {seen : List ClassId} : Preorder bases seen [] [] seen
  | skip {seen after : List ClassId} {info : ClassInfo} {rest order : List ClassInfo}
      (known : info.id ∈ seen) (onward : Preorder bases seen rest order after) :
      Preorder bases seen (info :: rest) order after
  | visit {seen between after : List ClassId} {info : ClassInfo}
      {rest below beyond : List ClassInfo} (fresh : info.id ∉ seen)
      (down : Preorder bases (info.id :: seen) (bases info) below between)
      (onward : Preorder bases between rest beyond after) :
      Preorder bases seen (info :: rest) (info :: below ++ beyond) after

namespace Preorder

variable {bases : ClassInfo → List ClassInfo} {seen after : List ClassId}
  {classes order : List ClassInfo}

/-- **There is one way to search.** -/
theorem unique (first : Preorder bases seen classes order after) {others : List ClassInfo}
    {last : List ClassId} (second : Preorder bases seen classes others last) :
    order = others ∧ after = last := by
  induction first generalizing others last with
  | done =>
      cases second
      exact ⟨rfl, rfl⟩
  | skip known _ ih =>
      cases second with
      | skip _ onward => exact ih onward
      | visit fresh => exact absurd known fresh
  | visit fresh _ _ ihDown ihOnward =>
      cases second with
      | skip known => exact absurd known fresh
      | visit _ down onward =>
          obtain ⟨rfl, rfl⟩ := ihDown down
          obtain ⟨rfl, rfl⟩ := ihOnward onward
          exact ⟨rfl, rfl⟩

/-- Searching two lists put together is searching one after the other. -/
theorem split {front back : List ClassInfo}
    (search : Preorder bases seen (front ++ back) order after) :
    ∃ below beyond between, order = below ++ beyond ∧ Preorder bases seen front below between ∧
      Preorder bases between back beyond after := by
  induction front generalizing seen order with
  | nil => exact ⟨[], order, seen, rfl, .done, search⟩
  | cons info front ih =>
      cases search with
      | skip known onward =>
          obtain ⟨below, beyond, between, rfl, first, second⟩ := ih onward
          exact ⟨below, beyond, between, rfl, .skip known first, second⟩
      | visit fresh down onward =>
          obtain ⟨below, beyond, between, rfl, first, second⟩ := ih onward
          exact ⟨_, beyond, between, (List.append_assoc ..).symm, .visit fresh down first, second⟩

/-- Classes that were visited before can be put in front. -/
theorem skipAll {known : List ClassInfo} (visited : ∀ info ∈ known, info.id ∈ seen)
    (search : Preorder bases seen classes order after) :
    Preorder bases seen (known ++ classes) order after := by
  induction known with
  | nil => exact search
  | cons info known ih =>
      exact .skip (visited info List.mem_cons_self)
        (ih fun other among => visited other (List.mem_cons_of_mem _ among))

/-- Classes that were visited before can be dropped from the front. -/
theorem of_dropWhile
    (search : Preorder bases seen (classes.dropWhile (fun info => seen.contains info.id)) order
      after) : Preorder bases seen classes order after := by
  rw [← List.takeWhile_append_dropWhile (p := fun info => seen.contains info.id) (l := classes)]
  refine search.skipAll fun info among => ?_
  have visited := List.all_eq_true.mp List.all_takeWhile info among
  exact List.contains_iff_mem.mp visited

/-- Visited are the classes visited before and the classes of the order. -/
theorem mem_after_iff (search : Preorder bases seen classes order after) {id : ClassId} :
    id ∈ after ↔ id ∈ seen ∨ ∃ info ∈ order, info.id = id := by
  induction search with
  | done => simp
  | skip _ _ ih => exact ih
  | visit fresh _ _ ihDown ihOnward =>
      rw [ihOnward, ihDown]
      grind

/-- After the search, every class of the list was visited. -/
theorem mem_after (search : Preorder bases seen classes order after) :
    ∀ info ∈ classes, info.id ∈ after := by
  induction search with
  | done => exact fun _ among => nomatch among
  | skip known onward ih =>
      intro other among
      rcases List.mem_cons.mp among with rfl | later
      · exact onward.mem_after_iff.mpr (.inl known)
      · exact ih other later
  | visit fresh down onward ihDown ihOnward =>
      intro other among
      rcases List.mem_cons.mp among with rfl | later
      · exact onward.mem_after_iff.mpr (.inl (down.mem_after_iff.mpr (.inl List.mem_cons_self)))
      · exact ihOnward other later

/-- After the search, the base classes of every class of the order were visited. -/
theorem bases_mem_after (search : Preorder bases seen classes order after) :
    ∀ info ∈ order, ∀ base ∈ bases info, base.id ∈ after := by
  induction search with
  | done => exact fun _ among => nomatch among
  | skip _ _ ih => exact ih
  | visit fresh down onward ihDown ihOnward =>
      intro other among base given
      rw [List.cons_append, List.mem_cons, List.mem_append] at among
      rcases among with rfl | inside | later
      · exact onward.mem_after_iff.mpr (.inl (down.mem_after base given))
      · exact onward.mem_after_iff.mpr (.inl (ihDown other inside base given))
      · exact ihOnward other later base given

/-- Every class of the order is reached from the list. -/
theorem reached (search : Preorder bases seen classes order after) :
    ∀ info ∈ order, ∃ start ∈ classes,
      Relation.ReflTransGen (fun one base => base ∈ bases one) start info := by
  induction search with
  | done => exact fun _ among => nomatch among
  | skip _ _ ih =>
      intro other among
      obtain ⟨start, given, path⟩ := ih other among
      exact ⟨start, List.mem_cons_of_mem _ given, path⟩
  | @visit _ _ _ info _ _ _ fresh down onward ihDown ihOnward =>
      intro other among
      rw [List.cons_append, List.mem_cons, List.mem_append] at among
      rcases among with rfl | inside | later
      · exact ⟨_, List.mem_cons_self, .refl⟩
      · obtain ⟨base, given, path⟩ := ihDown other inside
        exact ⟨info, List.mem_cons_self, .head given path⟩
      · obtain ⟨start, given, path⟩ := ihOnward other later
        exact ⟨start, List.mem_cons_of_mem _ given, path⟩

/-- No class is visited that was visited before. -/
theorem fresh_of_mem (search : Preorder bases seen classes order after) :
    ∀ info ∈ order, info.id ∉ seen := by
  induction search with
  | done => exact fun _ among => nomatch among
  | skip _ _ ih => exact ih
  | visit fresh down onward ihDown ihOnward =>
      intro other among
      rw [List.cons_append, List.mem_cons, List.mem_append] at among
      rcases among with rfl | inside | later
      · exact fresh
      · exact fun known => ihDown other inside (List.mem_cons_of_mem _ known)
      · exact fun known => ihOnward other later
          (down.mem_after_iff.mpr (.inl (List.mem_cons_of_mem _ known)))

/-- No class is visited twice. -/
theorem nodup (search : Preorder bases seen classes order after) :
    (order.map (·.id)).Nodup := by
  induction search with
  | done => exact .nil
  | skip _ _ ih => exact ih
  | @visit _ between _ info _ below beyond fresh down onward ihDown ihOnward =>
      have early : ∀ other ∈ info :: below, other.id ∈ between := by
        intro other among
        rcases List.mem_cons.mp among with rfl | inside
        · exact down.mem_after_iff.mpr (.inl List.mem_cons_self)
        · exact down.mem_after_iff.mpr (.inr ⟨other, inside, rfl⟩)
      have first : ((info :: below).map (·.id)).Nodup := by
        rw [List.map_cons, List.nodup_cons]
        refine ⟨fun again => ?_, ihDown⟩
        obtain ⟨other, inside, same⟩ := List.mem_map.mp again
        exact down.fresh_of_mem other inside (same ▸ List.mem_cons_self)
      rw [List.map_append]
      refine first.append ihOnward fun id here later => ?_
      obtain ⟨other, among, rfl⟩ := List.mem_map.mp here
      obtain ⟨again, beyondIt, same⟩ := List.mem_map.mp later
      exact onward.fresh_of_mem again beyondIt (same ▸ early other among)

/-- A search from one class starts with it. -/
theorem eq_cons {info : ClassInfo} (search : Preorder bases [] [info] order after) :
    ∃ others, order = info :: others := by
  cases search with
  | skip known => exact nomatch known
  | visit => exact ⟨_, rfl⟩

end Preorder

/-! ## The search with a list of pending classes -/

/-- The base classes of a class that are classes of the index, from left to right. They are what
the base expressions denote in the module of the class, as the index finds it by name. -/
def baseClasses (index : SolutionIndex) (info : ClassInfo) : List ClassInfo :=
  match index.module? info.moduleName with
  | none => []
  | some home => info.bases.filterMap (fun base =>
    match (expression index (stepsAt 0) home base).value with
    | some (.class found) => some found
    | _ => none)

theorem value_basesOf (index : SolutionIndex) (info : ClassInfo) :
    (basesOf index info).value = baseClasses index info := by
  unfold basesOf baseClasses
  cases index.module? info.moduleName with
  | none => rfl
  | some home =>
      rw [Logged.value_bind, Logged.value_pure, Logged.value_mapM, classes, List.filterMap_map]
      rfl

/-- The search through pending classes visits them as the recursive search does, when its visits
are enough. -/
theorem preorder_ancestorsFrom {index : SolutionIndex} {ids : List ClassId}
    (listed : ∀ found ∈ index.allClasses, found.id ∈ ids) {visits : Nat}
    {pending : List ClassInfo} {seen : List ClassId}
    (visiting : Visiting ids visits pending seen) :
    ∃ after, Preorder (baseClasses index) seen pending
      (ancestorsFrom index visits pending seen).value after := by
  induction visits generalizing pending seen with
  | zero =>
      refine ⟨seen, Preorder.of_dropWhile ?_⟩
      rw [visiting.exhausted]
      exact .done
  | succ visits ih =>
      rw [ancestorsFrom]
      cases left : pending.dropWhile (fun info => seen.contains info.id) with
      | nil =>
          refine ⟨seen, Preorder.of_dropWhile ?_⟩
          rw [left]
          exact .done
      | cons info rest =>
          obtain ⟨after, search⟩ := ih (visiting.visit listed left)
          rw [value_basesOf] at search
          obtain ⟨below, beyond, between, order, down, onward⟩ := search.split
          refine ⟨after, Preorder.of_dropWhile ?_⟩
          simp only [left, Logged.value_bind, Logged.value_pure, value_basesOf, order]
          exact .visit (Visiting.unseen left) down onward

/-- With the visits that `ancestors` allows, or more, a class and its base classes are visited as
by the recursive search. -/
theorem preorder_of_enough (index : SolutionIndex) (info : ClassInfo) {visits : Nat}
    (enough : index.classCount + 1 ≤ visits) :
    ∃ after, Preorder (baseClasses index) [] [info]
      (ancestorsFrom index visits [info] []).value after := by
  have start := Visiting.start index info
  refine preorder_ancestorsFrom
    (fun found among => List.mem_cons_of_mem info.id (List.mem_map_of_mem among))
    ⟨start.distinct, start.within, start.leads, Nat.le_trans start.enough ?_⟩
  exact Nat.add_le_add_right enough _

/-! ## Base classes and methods -/

/-- A class is reached from another one through base classes. -/
def ReachesBase (index : SolutionIndex) (info found : ClassInfo) : Prop :=
  Relation.ReflTransGen (fun one base => base ∈ baseClasses index one) info found

/-- From a class at its place, only classes at their places are reached. -/
theorem ReachesBase.placed {reads : List ReadDocument} {info found : ClassInfo}
    (reaches : ReachesBase (SolutionIndex.addAll reads {}).value info found)
    (placed : classAt? reads info.id = some info) : classAt? reads found.id = some found := by
  induction reaches with
  | refl => exact placed
  | tail _ base _ =>
      rw [← value_basesOf] at base
      exact (handedOn_placed reads).of_basesOf _ _ base

/-- A recursive search from a class at its place visits exactly the classes that are reached. -/
theorem Preorder.mem_iff {reads : List ReadDocument} {info : ClassInfo} {order : List ClassInfo}
    {after : List ClassId} (placed : classAt? reads info.id = some info)
    (search : Preorder (baseClasses (SolutionIndex.addAll reads {}).value) [] [info] order after)
    {found : ClassInfo} :
    found ∈ order ↔ ReachesBase (SolutionIndex.addAll reads {}).value info found := by
  have sound : ∀ other ∈ order, ReachesBase (SolutionIndex.addAll reads {}).value info other := by
    intro other among
    obtain ⟨start, given, path⟩ := search.reached other among
    exact List.mem_singleton.mp given ▸ path
  -- A class whose place was visited is in the order: there is one class at each place.
  have visited : ∀ other, ReachesBase (SolutionIndex.addAll reads {}).value info other →
      other.id ∈ after → other ∈ order := by
    intro other reaches among
    obtain ⟨same, inside, place⟩ := (search.mem_after_iff.mp among).resolve_left List.not_mem_nil
    exact eq_of_id_eq ((sound same inside).placed placed) (reaches.placed placed) place ▸ inside
  refine ⟨sound found, fun reaches => ?_⟩
  induction reaches with
  | refl => exact visited info .refl (search.mem_after info List.mem_cons_self)
  | tail earlier base ih =>
      exact visited _ (earlier.tail base) (search.bases_mem_after _ ih _ base)

/-- The first class of an order that has the property. -/
def IsFirst (order : List ClassInfo) (good : ClassInfo → Prop) (found : ClassInfo) : Prop :=
  ∃ before later, order = before ++ found :: later ∧ good found ∧ ∀ other ∈ before, ¬ good other

theorem find?_eq_some_iff_isFirst {order : List ClassInfo} {test : ClassInfo → Bool}
    {good : ClassInfo → Prop} (agrees : ∀ info ∈ order, test info = true ↔ good info)
    {found : ClassInfo} : order.find? test = some found ↔ IsFirst order good found := by
  rw [List.find?_eq_some_iff_append]
  constructor
  · rintro ⟨accepted, before, later, rfl, refused⟩
    refine ⟨before, later, rfl, (agrees found (by simp)).mp accepted, fun other among holds => ?_⟩
    have passed := (agrees other (List.mem_append_left _ among)).mpr holds
    simpa [passed] using refused other among
  · rintro ⟨before, later, rfl, holds, unheld⟩
    refine ⟨(agrees found (by simp)).mpr holds, before, later, rfl, fun other among => ?_⟩
    have failed := mt (agrees other (List.mem_append_left _ among)).mp (unheld other among)
    simpa using failed

/-- A class that is looked at for a method: it defines the method, and it is not the class the
search started from if that one is left out. -/
def Offers (info : ClassInfo) (name : String) (skipSelf : Bool) (other : ClassInfo) : Prop :=
  other.methods.contains name = true ∧ (skipSelf = true → other ≠ info)

/-- The test of a search by places is the test by classes, for classes at their places. -/
theorem offers_iff {reads : List ReadDocument} {info other : ClassInfo}
    (placed : classAt? reads info.id = some info) (found : classAt? reads other.id = some other)
    (name : String) (skipSelf : Bool) :
    (!(skipSelf && other.id == info.id) && other.methods.contains name) = true ↔
      Offers info name skipSelf other := by
  have same : other.id = info.id ↔ other = info :=
    ⟨eq_of_id_eq found placed, fun equal => equal ▸ rfl⟩
  cases skipSelf with
  | false => simp [Offers]
  | true => simp [Offers, same, and_comm]

/-- **Base classes are searched depth first, from left to right, and the search ends.** This is
said of every class of the documents that were entered, also of classes that are superseded by
later ones. No bound on the visits that is at least that of `ancestors` changes the outcome. It is
the order of the recursive search, which has one outcome. It starts with the class itself, has no
class twice, and has exactly the classes that are reached through base classes. A method is
looked up in the first class of the order that defines it. If the class itself is left out, that
is the first such class other than it. -/
theorem base_classes_in_preorder (reads : List ReadDocument) (id : ClassId) (info : ClassInfo)
    (made : classAt? reads id = some info) :
    let index := (SolutionIndex.addAll reads {}).value
    let order := (ancestors index info).value
    (∀ visits, index.classCount + 1 ≤ visits →
      (ancestorsFrom index visits [info] []).value = order) ∧
    (∀ outcome, (∃ after, Preorder (baseClasses index) [] [info] outcome after) ↔
      outcome = order) ∧
    (∃ others, order = info :: others) ∧ (order.map (·.id)).Nodup ∧
    (∀ found, found ∈ order ↔ ReachesBase index info found) ∧
    ∀ name skipSelf,
      (∀ found, (definingClass? index info name skipSelf).value = some found ↔
        IsFirst order (Offers info name skipSelf) found) ∧
      ((definingClass? index info name skipSelf).value = none ↔
        ∀ found ∈ order, ¬ Offers info name skipSelf found) := by
  intro index order
  have placed : classAt? reads info.id = some info := (id_of_classAt? made).symm ▸ made
  obtain ⟨after, search⟩ := preorder_of_enough index info (Nat.le_refl _)
  have members : ∀ {found}, found ∈ order ↔ ReachesBase index info found := search.mem_iff placed
  have agrees (name : String) (skipSelf : Bool) : ∀ other ∈ order,
      (!(skipSelf && other.id == info.id) && other.methods.contains name) = true ↔
        Offers info name skipSelf other :=
    fun other among => offers_iff placed ((members.mp among).placed placed) name skipSelf
  refine ⟨fun visits enough => ?_, fun outcome => ⟨?_, ?_⟩, search.eq_cons, search.nodup,
    fun _ => members, fun name skipSelf =>
      ⟨fun found => find?_eq_some_iff_isFirst (agrees name skipSelf), ?_⟩⟩
  · obtain ⟨_, longer⟩ := preorder_of_enough index info enough
    exact (longer.unique search).1
  · rintro ⟨_, other⟩
    exact (other.unique search).1
  · rintro rfl
    exact ⟨after, search⟩
  · rw [definingClass?, Logged.value_bind, Logged.value_pure, List.find?_eq_none]
    exact forall₂_congr fun other among => not_congr (agrees name skipSelf other among)

/-- Two documents of one module. The class of the first document names base classes that stand in
the second one, where they lead back to a class of its own name and meet below. -/
def supersededClass : List ReadDocument :=
  [⟨0, ⟨⟨.here, ["app.py"]⟩, "app", false⟩,
    [.classDef ⟨1, "Shape", [.name "Round", .name "Flat", .name "Round"], [],
      [.function ⟨2, "area", .none, [], [], none⟩], []⟩]⟩,
   ⟨1, ⟨⟨.here, ["app", "__init__.py"]⟩, "app", true⟩,
    [.classDef ⟨1, "Round", [.name "Solid"], [], [], []⟩,
     .classDef ⟨2, "Flat", [.name "Solid"], [],
      [.function ⟨3, "area", .none, [], [], none⟩], []⟩,
     .classDef ⟨4, "Solid", [.name "Shape"], [], [], []⟩,
     .classDef ⟨5, "Shape", [.name "Round"], [],
      [.function ⟨6, "area", .none, [], [], none⟩], []⟩]⟩]

theorem base_classes_in_preorder_superseded :
    ∃ info found, classAt? supersededClass ⟨0, [0]⟩ = some info ∧
      classAt? supersededClass ⟨1, [3]⟩ = some found ∧
      ((ancestors (SolutionIndex.addAll supersededClass {}).value info).value).map (·.id) =
        [⟨0, [0]⟩, ⟨1, [0]⟩, ⟨1, [2]⟩, ⟨1, [3]⟩, ⟨1, [1]⟩] ∧
      ReachesBase (SolutionIndex.addAll supersededClass {}).value info found ∧
      IsFirst (ancestors (SolutionIndex.addAll supersededClass {}).value info).value
        (Offers info "area" true) found := by
  refine ⟨_, _, rfl, rfl, by decide +kernel, ?_⟩
  obtain ⟨_, _, _, _, reached, searched⟩ :=
    base_classes_in_preorder supersededClass ⟨0, [0]⟩ _ rfl
  have first := ((searched "area" true).1 _).mp rfl
  refine ⟨(reached _).mp ?_, first⟩
  obtain ⟨before, later, order, _⟩ := first
  rw [order]
  exact List.mem_append_right before List.mem_cons_self

end Resolve

end CyclicCalls
