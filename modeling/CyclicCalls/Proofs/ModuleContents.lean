import CyclicCalls.Index.Solution
/-!
# What the index holds

The functions and classes that a module binds, and the classes that its methods belong to,
all come from its outline, and so do its declarations. This module ties the two together: a
bound function is declared as a function of the module, and a class that a module has, in
the end, brings a declaration for each of its methods (`ModuleInfo.HasClass.exists_method`).
A class may be superseded by a later one of its name. It is bound to nothing then, but its
methods are still declared, so `HasClass` asks where a class was made and not what it is
bound to.

An index is made by entering documents one after the other (`SolutionIndex.addAll`). It
holds what was found in each of them, also under a module name that was taken over later
(`SolutionIndex.byDocument_addAll`), and finds under a name the module that was entered last
(`SolutionIndex.module?_addAll`).
-/

set_option autoImplicit false

namespace CyclicCalls

open Source Solution

/-! ## Bindings -/

section Lookup

variable {κ α : Type} [DecidableEq κ]

theorem lookup_cons (name other : κ) (value : α) (entries : List (κ × α)) :
    ((name, value) :: entries).lookup other =
      if other = name then some value else entries.lookup other := by
  rw [List.lookup_cons]
  by_cases same : other = name
  · simp [same]
  · simp [same, beq_false_of_ne same]

theorem mem_of_lookup {entries : List (κ × α)} {name : κ} {value : α}
    (found : entries.lookup name = some value) : (name, value) ∈ entries := by
  obtain ⟨before, later, rfl, _⟩ := List.lookup_eq_some_iff.mp found
  exact List.mem_append_right before List.mem_cons_self

/-- When no name is listed twice, every entry is found under its name. -/
theorem lookup_of_mem {entries : List (κ × α)} (distinct : (entries.map (·.1)).Nodup) {name : κ}
    {value : α} (listed : (name, value) ∈ entries) : entries.lookup name = some value := by
  induction entries with
  | nil => exact nomatch listed
  | cons entry entries ih =>
      obtain ⟨other, old⟩ := entry
      obtain ⟨fresh, rest⟩ := List.nodup_cons.mp distinct
      rw [lookup_cons]
      rcases List.mem_cons.mp listed with here | later
      · cases here
        exact if_pos rfl
      · have different : name ≠ other := by
          rintro rfl
          exact fresh (List.mem_map.mpr ⟨(name, value), later, rfl⟩)
        rw [if_neg different]
        exact ih rest later

end Lookup

namespace Bindings

variable {α : Type}

/-- An entry is the new one or an old one. -/
theorem mem_bindEntry {name : String} {value : α} {bound : String × α}
    {entries : List (String × α)} (among : bound ∈ bindEntry name value entries) :
    bound = (name, value) ∨ bound ∈ entries := by
  induction entries with
  | nil => exact .inl (List.mem_singleton.mp among)
  | cons entry entries ih =>
      obtain ⟨first, old⟩ := entry
      unfold bindEntry at among
      split at among
      · rename_i same
        rcases List.mem_cons.mp among with here | later
        · rw [beq_iff_eq.mp same] at here
          exact .inl here
        · exact .inr (List.mem_cons_of_mem _ later)
      · rcases List.mem_cons.mp among with here | later
        · exact .inr (here ▸ List.mem_cons_self)
        · exact (ih later).imp_right (List.mem_cons_of_mem _)

/-- A name is bound to what it was bound to last. -/
theorem find?_bind (bindings : Bindings α) (name other : String) (value : α) :
    (bindings.bind name value).find? other =
      if other = name then some value else bindings.find? other := by
  unfold bind find?
  generalize bindings.entries = entries
  induction entries with
  | nil => exact lookup_cons name other value []
  | cons entry entries ih =>
      obtain ⟨first, old⟩ := entry
      unfold bindEntry
      split
      · rename_i same
        rw [beq_iff_eq] at same
        subst same
        rw [lookup_cons, lookup_cons]
        split <;> rfl
      · rename_i different
        rw [beq_iff_eq] at different
        rw [lookup_cons, ih, lookup_cons]
        split
        · rename_i here
          rw [if_neg (here ▸ different)]
        · rfl

/-- What is bound was given. -/
theorem mem_of_find?_ofList {pairs : List (String × α)} {name : String} {value : α}
    (found : (ofList pairs).find? name = some value) : (name, value) ∈ pairs := by
  have given : ∀ pair ∈ (ofList pairs).entries, pair ∈ pairs := by
    refine List.foldlRecOn
      (motive := fun bindings : Bindings α => ∀ pair ∈ bindings.entries, pair ∈ pairs)
      pairs (fun bindings pair => bindings.bind pair.1 pair.2) (fun _ member => nomatch member) ?_
    intro bindings earlier pair member other among
    rcases mem_bindEntry among with new | known
    · exact new ▸ member
    · exact earlier other known
  exact given _ (mem_of_lookup found)

end Bindings

namespace Index

/-! ## Outlines, classes and declarations -/

/-- The class that a class definition with the given outline makes as a member of a
scope. -/
def classInfo (place : Place) (member : Nat) (definition : ClassDef Stmt)
    (members : List Outline) : ClassInfo where
  id := ⟨place.entry, place.position ++ [member]⟩
  moduleName := place.moduleName
  name := place.path ++ definition.name
  line := definition.line
  bases := definition.bases
  methods := functionLines members
  nested := Bindings.ofList (classesFrom (place.inside member definition.name) 0 members)

theorem classOf_classDef (place : Place) (member : Nat) (definition : ClassDef Stmt)
    (members : List Outline) :
    classOf place member (.classDef definition members) =
      [(definition.name, classInfo place member definition members)] := by
  rw [classOf]
  rfl

theorem declarationsOf_classDef (document : Document) (place : Place) (owner : Option ClassInfo)
    (member : Nat) (definition : ClassDef Stmt) (members : List Outline) :
    declarationsOf document place owner member (.classDef definition members) =
      declarationsFrom document (place.inside member definition.name)
        (some (classInfo place member definition members)) 0 members := by
  rw [declarationsOf, classOf_classDef]
  rfl

/-- A class of a scope is made by a class definition among its members. -/
theorem exists_of_mem_classesFrom {place : Place} {member : Nat} {outlines : List Outline}
    {name : String} {found : ClassInfo}
    (among : (name, found) ∈ classesFrom place member outlines) :
    ∃ (position : Nat) (definition : ClassDef Stmt) (members : List Outline),
      outlines[position]? = some (.classDef definition members) ∧
        found = classInfo place (member + position) definition members := by
  induction outlines generalizing member with
  | nil => exact nomatch among
  | cons outline rest ih =>
      rw [classesFrom, List.mem_append] at among
      rcases among with here | later
      · cases outline with
        | classDef definition members =>
            rw [classOf_classDef, List.mem_singleton] at here
            exact ⟨0, definition, members, rfl, congrArg Prod.snd here⟩
        | function _ | importModules _ | importFrom _ _ _ => exact nomatch here
      · obtain ⟨position, definition, members, stands, made⟩ := ih later
        refine ⟨position + 1, definition, members, stands, ?_⟩
        rw [made, Nat.add_assoc, Nat.add_comm 1]

/-- The declarations of a member are among those of its scope. -/
theorem declarationsOf_subset {document : Document} {place : Place} {owner : Option ClassInfo}
    {member position : Nat} {outlines : List Outline} {outline : Outline}
    (stands : outlines[position]? = some outline) :
    declarationsOf document place owner (member + position) outline ⊆
      declarationsFrom document place owner member outlines := by
  induction outlines generalizing member position with
  | nil => exact nomatch stands
  | cons first rest ih =>
      rw [declarationsFrom]
      cases position with
      | zero =>
          cases stands
          exact List.subset_append_left _ _
      | succ position =>
          rw [← Nat.succ_add_eq_add_succ]
          exact List.Subset.trans (ih stands) (List.subset_append_right _ _)

/-- A function that a scope binds is declared by a member of the scope. -/
theorem exists_function {members : List Outline} {name : String}
    (bound : (functionLines members).contains name = true) :
    ∃ (position : Nat) (definition : FunctionDef Stmt),
      members[position]? = some (.function definition) ∧ definition.name = name := by
  obtain ⟨line, found⟩ := Option.isSome_iff_exists.mp bound
  obtain ⟨outline, member, same⟩ := List.mem_filterMap.mp (Bindings.mem_of_find?_ofList found)
  obtain ⟨position, stands⟩ := List.mem_iff_getElem?.mp member
  cases outline with
  | function definition =>
      rw [Option.some.injEq, Prod.mk.injEq] at same
      exact ⟨position, definition, stands, same.1⟩
  | classDef _ _ | importModules _ | importFrom _ _ _ => exact nomatch same

/-! ## The classes of a module -/

namespace ModuleInfo

/-- A module has a class when a class definition makes it and the module declares what stands
in its body. -/
def HasClass (info : ModuleInfo) (found : ClassInfo) : Prop :=
  ∃ place member definition members, place.moduleName = info.name ∧
    found = classInfo place member definition members ∧
    declarationsFrom info.document (place.inside member definition.name) (some found) 0 members ⊆
      info.declarations

/-- A module declares each method of a class that it has. -/
theorem HasClass.exists_method {info : ModuleInfo} {found : ClassInfo} (has : info.HasClass found)
    {name : String} (bound : found.methods.contains name = true) :
    ∃ declaration ∈ info.declarations,
      declaration.key = ⟨found.moduleName, found.qualifiedName, name⟩ := by
  obtain ⟨place, member, definition, members, home, rfl, declares⟩ := has
  obtain ⟨position, method, stands, named⟩ := exists_function bound
  refine ⟨⟨info.document, method, some (classInfo place member definition members)⟩,
    declares (declarationsOf_subset stands ?_), ?_⟩
  · rw [declarationsOf]
    exact List.mem_singleton_self _
  · rw [← named]
    exact congrArg (fun module => (⟨module, _, _⟩ : MethodKey)) home.symm

/-- A scope whose declarations a module has brings its classes into the module. -/
theorem hasClass_of_mem_classesFrom {info : ModuleInfo} (place : Place)
    {owner : Option ClassInfo} {member : Nat} {outlines : List Outline}
    (home : place.moduleName = info.name)
    (declares : declarationsFrom info.document place owner member outlines ⊆ info.declarations)
    {name : String} {found : ClassInfo}
    (among : (name, found) ∈ classesFrom place member outlines) : info.HasClass found := by
  obtain ⟨position, definition, members, stands, rfl⟩ := exists_of_mem_classesFrom among
  refine ⟨place, member + position, definition, members, home, rfl, ?_⟩
  rw [← declarationsOf_classDef info.document place owner]
  exact List.Subset.trans (declarationsOf_subset stands) declares

/-- A class inside a class that a module has is a class of the module. -/
theorem HasClass.nested {info : ModuleInfo} {found inner : ClassInfo} (has : info.HasClass found)
    {name : String} (bound : found.nested.find? name = some inner) : info.HasClass inner := by
  obtain ⟨place, member, definition, members, home, rfl, declares⟩ := has
  exact hasClass_of_mem_classesFrom (place.inside member definition.name) home declares
    (Bindings.mem_of_find?_ofList bound)

mutual

/-- The declarations of a scope belong to the given class, or to a class inside. -/
theorem owner_of_mem_declarationsFrom (info : ModuleInfo) (place : Place)
    (owner : Option ClassInfo) (member : Nat) (home : place.moduleName = info.name) :
    ∀ outlines : List Outline,
      declarationsFrom info.document place owner member outlines ⊆ info.declarations →
      ∀ declaration ∈ declarationsFrom info.document place owner member outlines,
        declaration.owner = owner ∨ ∃ found, declaration.owner = some found ∧ info.HasClass found
  | [], _, _, among => nomatch among
  | outline :: rest, declares, declaration, among => by
      rw [declarationsFrom] at declares among
      obtain ⟨first, later⟩ := List.append_subset.mp declares
      rcases List.mem_append.mp among with here | after
      · exact owner_of_mem_declarationsOf info place owner member home outline first declaration
          here
      · exact owner_of_mem_declarationsFrom info place owner (member + 1) home rest later
          declaration after

theorem owner_of_mem_declarationsOf (info : ModuleInfo) (place : Place)
    (owner : Option ClassInfo) (member : Nat) (home : place.moduleName = info.name) :
    ∀ outline : Outline,
      declarationsOf info.document place owner member outline ⊆ info.declarations →
      ∀ declaration ∈ declarationsOf info.document place owner member outline,
        declaration.owner = owner ∨ ∃ found, declaration.owner = some found ∧ info.HasClass found
  | .function definition, _, declaration, among => by
      rw [declarationsOf, List.mem_singleton] at among
      exact .inl (among ▸ rfl)
  | .classDef definition members, declares, declaration, among => by
      rw [declarationsOf_classDef] at declares among
      have has : info.HasClass (classInfo place member definition members) :=
        ⟨place, member, definition, members, home, rfl, declares⟩
      rcases owner_of_mem_declarationsFrom info (place.inside member definition.name) _ 0 home
        members declares declaration among with own | inside
      · exact .inr ⟨_, own, has⟩
      · exact .inr inside
  | .importModules _, _, _, among => nomatch among
  | .importFrom _ _ _, _, _, among => nomatch among

end

mutual

/-- The declarations of a scope are those of the document. -/
theorem document_of_mem_declarationsFrom (document : Document) (place : Place)
    (owner : Option ClassInfo) (member : Nat) :
    ∀ outlines : List Outline,
      ∀ declaration ∈ declarationsFrom document place owner member outlines,
        declaration.document = document
  | [], _, among => nomatch among
  | outline :: rest, declaration, among => by
      rw [declarationsFrom] at among
      rcases List.mem_append.mp among with here | after
      · exact document_of_mem_declarationsOf document place owner member outline declaration here
      · exact document_of_mem_declarationsFrom document place owner (member + 1) rest declaration
          after

theorem document_of_mem_declarationsOf (document : Document) (place : Place)
    (owner : Option ClassInfo) (member : Nat) :
    ∀ outline : Outline,
      ∀ declaration ∈ declarationsOf document place owner member outline,
        declaration.document = document
  | .function definition, declaration, among => by
      rw [declarationsOf, List.mem_singleton] at among
      exact among ▸ rfl
  | .classDef definition members, declaration, among => by
      rw [declarationsOf_classDef] at among
      exact document_of_mem_declarationsFrom document (place.inside member definition.name) _ 0
        members declaration among
  | .importModules _, _, among => nomatch among
  | .importFrom _ _ _, _, among => nomatch among

end

/-- What a module binds and what it declares belong together. -/
structure Proper (info : ModuleInfo) : Prop where
  documents : ∀ declaration ∈ info.declarations, declaration.document = info.document
  /-- A bound function is declared as a function of the module. -/
  functions : ∀ name, info.functions.contains name = true →
    ∃ declaration ∈ info.declarations, declaration.key = ⟨info.name, info.name, name⟩
  classes : ∀ name found, info.classes.find? name = some found → info.HasClass found
  owners : ∀ declaration ∈ info.declarations, ∀ found, declaration.owner = some found →
    info.HasClass found

end ModuleInfo

theorem moduleInfo_proper (entry : Nat) (document : Document) (statements : List Stmt) :
    (moduleInfo entry document statements).value.Proper := by
  refine ⟨ModuleInfo.document_of_mem_declarationsFrom document _ _ _ _, fun name bound => ?_,
    fun name found bound => ?_, fun declaration among found own => ?_⟩
  · obtain ⟨position, definition, stands, named⟩ := exists_function bound
    refine ⟨⟨document, definition, none⟩, declarationsOf_subset stands ?_, ?_⟩
    · rw [declarationsOf]
      exact List.mem_singleton_self _
    · rw [← named]
      rfl
  · exact ModuleInfo.hasClass_of_mem_classesFrom _ rfl (List.Subset.refl _)
      (Bindings.mem_of_find?_ofList bound)
  · rcases ModuleInfo.owner_of_mem_declarationsFrom (moduleInfo entry document statements).value
      _ none 0 rfl _ (List.Subset.refl _) declaration among with outside | ⟨known, same, has⟩
    · exact nomatch own.symm.trans outside
    · cases own.symm.trans same
      exact has

/-! ## Indexes -/

/-- A document that could be read, with its number. -/
structure ReadDocument where
  number : Nat
  document : Document
  statements : List Stmt

/-- What documents declare, entered from the given entry of an index on, with the numbers of
the documents. -/
def modulesFrom (entry : Nat) : List ReadDocument → List (Nat × ModuleInfo)
  | [] => []
  | read :: later =>
    (read.number, (moduleInfo entry read.document read.statements).value) ::
      modulesFrom (entry + 1) later

/-- What was found is what some document declares, at the entry that its position gives. -/
theorem exists_of_mem_modulesFrom {entry number : Nat} {reads : List ReadDocument}
    {info : ModuleInfo} (among : (number, info) ∈ modulesFrom entry reads) :
    ∃ position, ∃ read ∈ reads, read.number = number ∧
      info = (moduleInfo (entry + position) read.document read.statements).value := by
  induction reads generalizing entry with
  | nil => exact nomatch among
  | cons read later ih =>
      rcases List.mem_cons.mp among with here | after
      · cases here
        exact ⟨0, read, List.mem_cons_self, rfl, rfl⟩
      · obtain ⟨position, other, member, numbered, rfl⟩ := ih after
        refine ⟨position + 1, other, List.mem_cons_of_mem _ member, numbered, ?_⟩
        rw [Nat.add_assoc, Nat.add_comm 1]

/-- The module at a position is what the document there declares. -/
theorem getElem?_modulesFrom (entry : Nat) (reads : List ReadDocument) (position : Nat) :
    (modulesFrom entry reads)[position]? = reads[position]?.map (fun read =>
      (read.number, (moduleInfo (entry + position) read.document read.statements).value)) := by
  induction reads generalizing entry position with
  | nil => rfl
  | cons read later ih =>
      cases position with
      | zero => rfl
      | succ position =>
          rw [modulesFrom, List.getElem?_cons_succ, List.getElem?_cons_succ, ih, Nat.add_assoc,
            Nat.add_comm 1]

theorem map_fst_modulesFrom (entry : Nat) (reads : List ReadDocument) :
    (modulesFrom entry reads).map (·.1) = reads.map (·.number) := by
  induction reads generalizing entry with
  | nil => rfl
  | cons read later ih => rw [modulesFrom, List.map_cons, List.map_cons, ih]

namespace SolutionIndex

/-- Enter documents from left to right. -/
def addAll : List ReadDocument → SolutionIndex → Logged SolutionIndex
  | [], index => pure index
  | read :: later, index => do
    let next ← index.add read.number read.document read.statements
    addAll later next

theorem add_value (index : SolutionIndex) (number : Nat) (document : Document)
    (statements : List Stmt) :
    (index.add number document statements).value =
      { modules := index.modules.bind document.moduleName
          (moduleInfo index.entries document statements).value
        byDocument := (number, (moduleInfo index.entries document statements).value) ::
          index.byDocument
        entries := index.entries + 1 } := by
  simp only [add, Logged.value_bind]
  split <;> rfl

/-- The module of a name is the one that was entered last under it. -/
theorem module?_add (index : SolutionIndex) (number : Nat) (document : Document)
    (statements : List Stmt) (name : String) :
    (index.add number document statements).value.module? name =
      if name = document.moduleName then
        some (moduleInfo index.entries document statements).value
      else index.module? name := by
  rw [add_value]
  exact Bindings.find?_bind index.modules document.moduleName name _

/-- The index keeps what was found in every document, the last one first. -/
theorem byDocument_addAll (reads : List ReadDocument) (index : SolutionIndex) :
    (addAll reads index).value.byDocument =
      (modulesFrom index.entries reads).reverse ++ index.byDocument := by
  induction reads generalizing index with
  | nil => rfl
  | cons read later ih =>
      rw [addAll, Logged.value_bind, ih, add_value, modulesFrom, List.reverse_cons,
        List.append_assoc]
      rfl

/-- The module of a name is the last one that was found under it. -/
theorem module?_addAll (reads : List ReadDocument) (index : SolutionIndex) (name : String) :
    (addAll reads index).value.module? name =
      (((modulesFrom index.entries reads).reverse.find?
        (fun entry => entry.2.name == name)).map (·.2)).or (index.module? name) := by
  induction reads generalizing index with
  | nil => rfl
  | cons read later ih =>
      rw [addAll, Logged.value_bind, ih, module?_add, add_value, modulesFrom, List.reverse_cons,
        List.find?_append]
      cases ((modulesFrom (index.entries + 1) later).reverse.find?
        (fun entry => entry.2.name == name)) with
      | some entry => rfl
      | none =>
          have named : (moduleInfo index.entries read.document read.statements).value.name =
              read.document.moduleName := rfl
          by_cases same : name = read.document.moduleName
          · simp [named, same]
          · simp [named, same, beq_false_of_ne (Ne.symm same)]

end SolutionIndex

end Index

end CyclicCalls
