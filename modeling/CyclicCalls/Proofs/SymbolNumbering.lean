import CyclicCalls.Proofs.SharedModuleNames
import CyclicCalls.Proofs.SkippedDocuments
/-!
# The numbers of symbols do not show

A symbol is known by its number, and its number depends on what was handed out before it. A
report shows names only. Two searches over graphs that differ in the numbers of their symbols
therefore report the same chains, as long as symbols with different numbers keep different
numbers.

The two graphs are compared through a relation of symbols that keeps keys and tells numbers
apart in the same way on both sides (`Renumbering`). The searches then go through the same
trails up to the relation (`Corresponds`), by one lemma for each change of the state and an
induction on what a scan does (`Scans.corresponds`). An injective map of the numbers of a graph
is such a relation, and so is the relation of symbols that two tables give to one key. Records
made from the same keys with two tables correspond, and so do their graphs.

Main statement: `report_ignores_numbering`.
-/

set_option autoImplicit false

namespace CyclicCalls

/-! ## Symbols that differ in their numbers -/

/-- A relation of symbols with the same keys, under which equal numbers correspond to equal
numbers. -/
structure Renumbering (related : Symbol → Symbol → Prop) : Prop where
  key : ∀ {symbol other : Symbol}, related symbol other → symbol.key = other.key
  index : ∀ {first second other another : Symbol}, related first other → related second another →
    (first.index = second.index ↔ other.index = another.index)

/-- Numbers of related symbols. -/
def Numbered (related : Symbol → Symbol → Prop) (number other : Nat) : Prop :=
  ∃ first second, related first second ∧ first.index = number ∧ second.index = other

namespace Renumbering

variable {related : Symbol → Symbol → Prop} (renumbering : Renumbering related)
  {symbol other : Symbol}

include renumbering

theorem ignores_eq (policy : Policy) (alike : related symbol other) :
    policy.ignores symbol = policy.ignores other := by
  simp only [Policy.ignores, Symbol.qualifiedName, renumbering.key alike]

theorem same_eq {second another : Symbol} (alike : related symbol other)
    (alikeToo : related second another) : symbol.same second = other.same another := by
  rw [Bool.eq_iff_iff, Symbol.same_iff, Symbol.same_iff]
  exact renumbering.index alike alikeToo

theorem eq_iff {number corresponding : Nat} (numbered : Numbered related number corresponding)
    (alike : related symbol other) : number = symbol.index ↔ corresponding = other.index := by
  obtain ⟨first, second, pair, rfl, rfl⟩ := numbered
  exact renumbering.index pair alike

theorem contains_eq {numbers others : List Nat}
    (numbered : List.Forall₂ (Numbered related) numbers others) (alike : related symbol other) :
    numbers.contains symbol.index = others.contains other.index := by
  induction numbered with
  | nil => rfl
  | cons first _ ih =>
      have heads := renumbering.eq_iff first alike
      rw [Bool.eq_iff_iff] at ih ⊢
      simp only [List.contains_iff_mem, List.mem_cons] at ih ⊢
      rw [ih, eq_comm, heads, eq_comm]

/-- Related methods have the same chain. -/
theorem chainOf_eq {methods others : List Symbol} (alike : List.Forall₂ related methods others) :
    chainOf methods = chainOf others := by
  have names : methods.map Symbol.qualifiedName = others.map Symbol.qualifiedName := by
    induction alike with
    | nil => rfl
    | cons first _ ih =>
        simp only [List.map_cons, ih, Symbol.qualifiedName, renumbering.key first]
  rw [chainOf, chainOf, names]

end Renumbering

/-! ## Trails and states -/

/-- Trails that differ in the numbers of their symbols. -/
structure Trail.Corresponds (related : Symbol → Symbol → Prop) (trail other : Trail) : Prop where
  steps : List.Forall₂ related trail.steps other.steps
  members : List.Forall₂ (Numbered related) trail.members other.members

namespace Trail.Corresponds

variable {related : Symbol → Symbol → Prop} (renumbering : Renumbering related)
  {trail other : Trail} {method another : Symbol}

include renumbering

theorem holds_eq (corresponds : trail.Corresponds related other) (alike : related method another) :
    trail.holds method = other.holds another :=
  renumbering.contains_eq corresponds.members alike

theorem push (corresponds : trail.Corresponds related other) (alike : related method another) :
    (trail.push method).Corresponds related (other.push another) := by
  constructor
  · exact .cons alike corresponds.steps
  · simp only [Trail.push, corresponds.holds_eq renumbering alike]
    split
    · exact corresponds.members
    · exact .cons ⟨method, another, alike, rfl, rfl⟩ corresponds.members

theorem drop (corresponds : trail.Corresponds related other) :
    trail.drop.Corresponds related other.drop := by
  obtain ⟨steps, members⟩ := trail
  obtain ⟨otherSteps, otherMembers⟩ := other
  obtain ⟨alike, numbered⟩ := corresponds
  cases alike with
  | nil => exact ⟨.nil, numbered⟩
  | cons latest earlier =>
      refine ⟨earlier, List.rel_filter (fun number corresponding pair => ?_) numbered⟩
      simp only [bne_iff_ne, ne_eq, renumbering.eq_iff pair latest]

theorem closedBy (corresponds : trail.Corresponds related other)
    (alike : related method another) :
    List.Forall₂ related (trail.closedBy method) (other.closedBy another) := by
  have dropped {steps others : List Symbol} (pairs : List.Forall₂ related steps others) :
      List.Forall₂ related (steps.dropWhile (fun step => !step.same method))
        (others.dropWhile (fun step => !step.same another)) := by
    induction pairs with
    | nil => exact .nil
    | cons first rest ih =>
        simp only [List.dropWhile_cons, renumbering.same_eq first alike]
        split
        · exact ih
        · exact .cons first rest
  exact List.rel_append (dropped (List.rel_reverse corresponds.steps)) (.cons alike .nil)

end Trail.Corresponds

namespace Search

/-- States that differ in the numbers of their symbols. -/
structure State.Corresponds (related : Symbol → Symbol → Prop) (state other : State) : Prop where
  visited : List.Forall₂ (Numbered related) state.visited other.visited
  trail : state.trail.Corresponds related other.trail
  log : state.log = other.log

namespace State.Corresponds

variable {related : Symbol → Symbol → Prop} (renumbering : Renumbering related)
  {state other : State} {method another : Symbol}

include renumbering

theorem knows_eq (corresponds : state.Corresponds related other) (alike : related method another) :
    state.knows method = other.knows another :=
  renumbering.contains_eq corresponds.visited alike

theorem closes_eq (corresponds : state.Corresponds related other) (policy : Policy)
    (alike : related method another) :
    closes policy state method = closes policy other another := by
  simp only [closes, renumbering.ignores_eq policy alike,
    corresponds.trail.holds_eq renumbering alike]

theorem enter (corresponds : state.Corresponds related other) (alike : related method another) :
    (state.enter method).Corresponds related (other.enter another) where
  visited := .cons ⟨method, another, alike, rfl, rfl⟩ corresponds.visited
  trail := corresponds.trail.push renumbering alike
  log := corresponds.log

theorem leave (corresponds : state.Corresponds related other) :
    (state.leave 1).Corresponds related (other.leave 1) where
  visited := corresponds.visited
  trail := corresponds.trail.drop renumbering
  log := corresponds.log

theorem close (corresponds : state.Corresponds related other) (alike : related method another) :
    (state.close method).Corresponds related (other.close another) where
  visited := corresponds.visited
  trail := corresponds.trail
  log := by
    simp only [State.close, corresponds.log,
      renumbering.chainOf_eq (corresponds.trail.closedBy renumbering alike)]

end State.Corresponds

end Search

/-! ## Graphs -/

namespace CallGraph

/-- Rows that differ in the numbers of their symbols. -/
structure RowCorresponds (related : Symbol → Symbol → Prop) (row other : Symbol × List Symbol) :
    Prop where
  caller : related row.1 other.1
  callees : List.Forall₂ related row.2 other.2

/-- Graphs that differ in the numbers of their symbols. -/
def Corresponds (related : Symbol → Symbol → Prop) (graph other : CallGraph) : Prop :=
  List.Forall₂ (RowCorresponds related) graph.rows other.rows

variable {related : Symbol → Symbol → Prop} {graph other : CallGraph}

theorem Corresponds.callers (corresponds : graph.Corresponds related other) :
    List.Forall₂ related graph.callers other.callers :=
  List.rel_map (fun _ _ rows => rows.caller) corresponds

theorem Corresponds.callees (corresponds : graph.Corresponds related other)
    (renumbering : Renumbering related) {method another : Symbol} (alike : related method another) :
    List.Forall₂ related (graph.callees method) (other.callees another) := by
  unfold Corresponds at corresponds
  unfold CallGraph.callees
  generalize graph.rows = rows at corresponds ⊢
  generalize other.rows = others at corresponds ⊢
  induction corresponds with
  | nil => exact .nil
  | @cons row otherRow _ _ first _ ih =>
      simp only [List.find?_cons, renumbering.same_eq first.caller alike]
      cases otherRow.1.same another with
      | true => exact first.callees
      | false => exact ih

end CallGraph

namespace Search

variable {related : Symbol → Symbol → Prop} {graph other : CallGraph} {policy : Policy}

/-- **Scans do not see numbers.** What scanning a list does, scanning related methods does in
the corresponding graph, with the same answer. -/
theorem Scans.corresponds (renumbering : Renumbering related)
    (graphs : graph.Corresponds related other) {methods others : List Symbol}
    {state after stateOther : State} {found : Bool}
    (scans : Scans graph policy methods state found after)
    (alike : List.Forall₂ related methods others) (states : state.Corresponds related stateOther) :
    ∃ afterOther, Scans other policy others stateOther found afterOther ∧
      after.Corresponds related afterOther := by
  induction scans generalizing others stateOther with
  | done =>
      cases alike
      exact ⟨stateOther, .done, states⟩
  | closed closing =>
      obtain _ | ⟨first, _⟩ := alike
      rw [states.closes_eq renumbering policy first] at closing
      exact ⟨_, .closed closing, states.close renumbering first⟩
  | known notClosing seen _ ih =>
      obtain _ | ⟨first, rest⟩ := alike
      rw [states.closes_eq renumbering policy first] at notClosing
      rw [states.knows_eq renumbering first] at seen
      obtain ⟨afterOther, scans, corresponds⟩ := ih rest states
      exact ⟨afterOther, .known notClosing seen scans, corresponds⟩
  | unwound notClosing unseen _ ih =>
      obtain _ | ⟨first, rest⟩ := alike
      rw [states.closes_eq renumbering policy first] at notClosing
      rw [states.knows_eq renumbering first] at unseen
      obtain ⟨innerOther, inside, corresponds⟩ :=
        ih (graphs.callees renumbering first) (states.enter renumbering first)
      exact ⟨_, .unwound notClosing unseen inside, corresponds.leave renumbering⟩
  | passed notClosing unseen _ _ ih later =>
      obtain _ | ⟨first, rest⟩ := alike
      rw [states.closes_eq renumbering policy first] at notClosing
      rw [states.knows_eq renumbering first] at unseen
      obtain ⟨innerOther, inside, corresponds⟩ :=
        ih (graphs.callees renumbering first) (states.enter renumbering first)
      obtain ⟨afterOther, scans, agreed⟩ := later rest (corresponds.leave renumbering)
      exact ⟨afterOther, .passed notClosing unseen inside scans, agreed⟩

theorem runFrom_corresponds (renumbering : Renumbering related)
    (graphs : graph.Corresponds related other) {roots others : List Symbol}
    (alike : List.Forall₂ related roots others) {state stateOther : State}
    (empty : state.trail = {}) (emptyOther : stateOther.trail = {})
    (states : state.Corresponds related stateOther) :
    (runFrom graph policy roots state).1.Corresponds related
      (runFrom other policy others stateOther).1 := by
  induction alike generalizing state stateOther with
  | nil => exact states
  | @cons root rootOther roots others first _ ih =>
      rw [runFrom_cons graph policy root roots empty,
        runFrom_cons other policy rootOther others emptyOther,
        states.knows_eq renumbering first]
      cases stateOther.knows rootOther with
      | true => exact ih empty emptyOther states
      | false =>
          obtain ⟨afterOther, scans, corresponds⟩ := (scans_search graph policy root state).corresponds
            renumbering graphs (.cons first .nil) states
          have outcome : (search other policy rootOther stateOther).2 = afterOther :=
            congrArg Prod.snd scans.search_eq
          rw [← outcome] at corresponds
          exact ih (search_trail_empty graph policy root empty)
            (search_trail_empty other policy rootOther emptyOther) corresponds

end Search

namespace CallGraph

variable {related : Symbol → Symbol → Prop} {graph other : CallGraph}

/-- **Corresponding graphs have the same chains.** -/
theorem Corresponds.cycles_eq (graphs : graph.Corresponds related other)
    (renumbering : Renumbering related) (policy : Policy) :
    graph.cycles policy = other.cycles policy := by
  have start : Search.State.Corresponds related {} {} := ⟨.nil, ⟨.nil, .nil⟩, rfl⟩
  exact congrArg ChainLog.chains
    (Search.runFrom_corresponds renumbering graphs graphs.callers rfl rfl start).log

/-! ## Other numbers for a graph -/

/-- The graph with other numbers for its symbols. -/
def renumber (graph : CallGraph) (number : Nat → Nat) : CallGraph :=
  { graph with
    rows := graph.rows.map (fun row =>
      (⟨number row.1.index, row.1.key⟩,
        row.2.map (fun callee => ⟨number callee.index, callee.key⟩))) }

/-- The symbols of a graph and the same with other numbers. -/
def RenumberedBy (graph : CallGraph) (number : Nat → Nat) (symbol other : Symbol) : Prop :=
  symbol ∈ graph.symbols ∧ other = ⟨number symbol.index, symbol.key⟩

/-- The numbers of the symbols of a graph. -/
def numbers (graph : CallGraph) : Set Nat :=
  {number | ∃ symbol ∈ graph.symbols, symbol.index = number}

theorem renumbering_renumberedBy {number : Nat → Nat}
    (injective : Set.InjOn number graph.numbers) : Renumbering (graph.RenumberedBy number) where
  key := by
    rintro symbol _ ⟨_, rfl⟩
    rfl
  index := by
    rintro first second _ _ ⟨here, rfl⟩ ⟨there, rfl⟩
    exact ⟨congrArg number, injective ⟨first, here, rfl⟩ ⟨second, there, rfl⟩⟩

theorem corresponds_renumber (graph : CallGraph) (number : Nat → Nat) :
    graph.Corresponds (graph.RenumberedBy number) (graph.renumber number) := by
  unfold Corresponds renumber
  rw [List.forall₂_map_right_iff, List.forall₂_same]
  intro row member
  constructor
  · exact ⟨mem_symbols_of_caller (List.mem_map_of_mem member), rfl⟩
  · rw [List.forall₂_map_right_iff, List.forall₂_same]
    intro callee listed
    exact ⟨List.mem_flatMap.mpr ⟨row, member, List.mem_cons_of_mem _ listed⟩, rfl⟩

/-! ## Graphs made from records -/

end CallGraph

/-- Records that differ in the numbers of their symbols. -/
structure CallRecord.Corresponds (related : Symbol → Symbol → Prop) (record other : CallRecord) :
    Prop where
  caller : related record.caller other.caller
  targets : List.Forall₂ (Option.Rel related) record.targets other.targets

namespace CallGraph

variable {related : Symbol → Symbol → Prop} {graph other : CallGraph}

theorem Corresponds.extend (graphs : graph.Corresponds related other)
    (renumbering : Renumbering related) {caller another : Symbol} (alike : related caller another)
    {callees others : List Symbol} (pairs : List.Forall₂ related callees others) :
    (graph.extend caller callees).Corresponds related (other.extend another others) := by
  unfold Corresponds CallGraph.extend at *
  generalize graph.rows = rows at graphs ⊢
  generalize other.rows = otherRows at graphs ⊢
  induction graphs with
  | nil => exact .cons ⟨alike, pairs⟩ .nil
  | @cons row otherRow _ _ first rest ih =>
      obtain ⟨known, knownCallees⟩ := row
      obtain ⟨knownOther, knownOthers⟩ := otherRow
      simp only [extendRows, renumbering.same_eq first.caller alike]
      split
      · exact .cons ⟨first.caller, List.rel_append first.callees pairs⟩ rest
      · exact .cons first ih

theorem Corresponds.addRecord (graphs : graph.Corresponds related other)
    (renumbering : Renumbering related) (policy : Policy) {record another : CallRecord}
    (pair : record.Corresponds related another) :
    (CallGraph.addRecord policy graph record).Corresponds related
      (CallGraph.addRecord policy other another) := by
  unfold CallGraph.addRecord
  rw [renumbering.ignores_eq policy pair.caller]
  split
  · exact graphs
  · exact graphs.extend renumbering pair.caller
      (List.rel_filterMap (fun _ _ targets => targets) pair.targets)

/-- Corresponding records make corresponding graphs. -/
theorem corresponds_ofRecords (renumbering : Renumbering related)
    {records others : List CallRecord}
    (pairs : List.Forall₂ (CallRecord.Corresponds related) records others) (policy : Policy) :
    (ofRecords records policy).Corresponds related (ofRecords others policy) := by
  have start : CallGraph.Corresponds related {} {} := List.Forall₂.nil
  suffices taken : ∀ {graph other : CallGraph}, graph.Corresponds related other →
      (records.foldl (CallGraph.addRecord policy) graph).Corresponds related
        (others.foldl (CallGraph.addRecord policy) other) from taken start
  induction pairs with
  | nil =>
      intro graph other graphs
      exact graphs
  | cons first _ ih =>
      intro graph other graphs
      exact ih (graphs.addRecord renumbering policy first)

end CallGraph

/-! ## Two tables -/

/-- Lists that are related to one list are related to each other. -/
theorem forall₂_of_common {α β γ : Type} {left : γ → α → Prop} {right : γ → β → Prop}
    {related : α → β → Prop}
    (joined : ∀ common first second, left common first → right common second →
      related first second)
    {commons : List γ} {firsts : List α} {seconds : List β}
    (lefts : List.Forall₂ left commons firsts) (rights : List.Forall₂ right commons seconds) :
    List.Forall₂ related firsts seconds := by
  induction lefts generalizing seconds with
  | nil =>
      cases rights
      exact .nil
  | cons here _ ih =>
      cases rights with
      | cons there later => exact .cons (joined _ _ _ here there) (ih later)

namespace SymbolTable

/-- The symbols that two tables give to one key. -/
def SameKey (table other : SymbolTable) (first second : Symbol) : Prop :=
  ∃ key, table.lookup? key = some first ∧ other.lookup? key = some second

theorem key_of_lookup? {table : SymbolTable} {key : MethodKey} {symbol : Symbol}
    (found : table.lookup? key = some symbol) : symbol.key = key :=
  beq_iff_eq.mp (List.find?_some (p := fun symbol : Symbol => symbol.key == key) found)

/-- In a table that interning made, a number belongs to one key. -/
theorem Reachable.key_eq_of_index {table : SymbolTable} (reachable : table.Reachable)
    {key other : MethodKey} {first second : Symbol} (found : table.lookup? key = some first)
    (foundOther : table.lookup? other = some second) (same : first.index = second.index) :
    key = other := by
  have equal := reachable.eq_of_index (mem_of_lookup? found) (mem_of_lookup? foundOther) same
  rw [← key_of_lookup? found, ← key_of_lookup? foundOther, equal]

theorem renumbering_sameKey {table other : SymbolTable} (reachable : table.Reachable)
    (reachableOther : other.Reachable) : Renumbering (SameKey table other) where
  key := by
    rintro first second ⟨key, found, foundOther⟩
    rw [key_of_lookup? found, key_of_lookup? foundOther]
  index := by
    rintro first second third fourth ⟨key, found, foundOther⟩ ⟨another, here, there⟩
    constructor
    · intro same
      obtain rfl := reachable.key_eq_of_index found here same
      cases foundOther.symm.trans there
      rfl
    · intro same
      obtain rfl := reachableOther.key_eq_of_index foundOther there same
      cases found.symm.trans here
      rfl

/-- Records with the symbols of the same keys correspond. -/
theorem Names.corresponds {table other : SymbolTable} {keys : KeyRecord}
    {record another : CallRecord} (names : table.Names keys record)
    (namesOther : other.Names keys another) : record.Corresponds (SameKey table other) another := by
  refine ⟨⟨keys.caller, names.caller, namesOther.caller⟩,
    forall₂_of_common (fun key first second left right => ?_) names.targets namesOther.targets⟩
  cases left with
  | none =>
      cases right
      exact .none
  | some found =>
      cases right with
      | some foundOther => exact .some ⟨_, found, foundOther⟩

/-- Two tables make corresponding records from the same keys. -/
theorem internRecords_corresponds {table other : SymbolTable} (reachable : table.Reachable)
    (reachableOther : other.Reachable) (keys : List KeyRecord) :
    ∃ related, Renumbering related ∧ List.Forall₂ (CallRecord.Corresponds related)
      (table.internRecords keys).1 (other.internRecords keys).1 := by
  obtain ⟨grown, names⟩ := table.internRecords_names keys
  obtain ⟨grownOther, namesOther⟩ := other.internRecords_names keys
  exact ⟨_, renumbering_sameKey (grown.reachable reachable) (grownOther.reachable reachableOther),
    forall₂_of_common (fun _ _ _ here there => here.corresponds there) names namesOther⟩

end SymbolTable

namespace Analysis

/-- The chains of documents do not depend on the table that hands out the symbols. -/
theorem cycles_collectedWith {table other : SymbolTable} (reachable : table.Reachable)
    (reachableOther : other.Reachable) (parsed : ParsedDocuments) (policy : Policy) :
    (CallGraph.ofRecords (collectedWith table parsed).1 policy).cycles policy =
      (CallGraph.ofRecords (collectedWith other parsed).1 policy).cycles policy := by
  obtain ⟨related, renumbering, pairs⟩ :=
    SymbolTable.internRecords_corresponds reachable reachableOther (keysOf parsed)
  rw [internRecords_keysOf, internRecords_keysOf] at pairs
  exact (CallGraph.corresponds_ofRecords renumbering pairs policy).cycles_eq renumbering policy

/-- **The report does not depend on the numbering.** Whatever was interned before, in whatever
order, the records that a table gives for documents have a graph with the chains that the
analysis of the documents returns, and so for the documents of a solution. More generally, a
graph whose symbols get other numbers, different ones for different ones, keeps its chains. -/
theorem report_ignores_numbering (policy : Policy) :
    (∀ table : SymbolTable, table.Reachable →
      (∀ parsed : ParsedDocuments, (ofDocuments parsed policy).value =
        .ok ((CallGraph.ofRecords (collectedWith table parsed).1 policy).cycles policy)) ∧
      ∀ (disk : Disk) (solution : Path), (run disk solution policy).value =
        match (({ table := table } : Workspace).collect disk solution.text).value with
        | .error error => .error (.load error)
        | .ok (records, _) => .ok ((CallGraph.ofRecords records policy).cycles policy)) ∧
    ∀ (graph : CallGraph) (number : Nat → Nat), Set.InjOn number graph.numbers →
      (graph.renumber number).cycles policy = graph.cycles policy := by
  refine ⟨fun table reachable => ?_, fun graph number injective => ?_⟩
  · have same (parsed : ParsedDocuments) : (ofDocuments parsed policy).value =
        .ok ((CallGraph.ofRecords (collectedWith table parsed).1 policy).cycles policy) := by
      rw [ofDocuments_value, cycles_collectedWith reachable .empty]
      rfl
    refine ⟨same, fun disk solution => ?_⟩
    rw [run_value, collect_value]
    cases Workspace.readSolution disk solution with
    | error error => rfl
    | ok parsed => exact same parsed
  · exact ((graph.corresponds_renumber number).cycles_eq
      (CallGraph.renumbering_renumberedBy injective) policy).symm

/-- A table that was used before: it knows `parse` of the twin modules, and a method of another
module. -/
def used : SymbolTable :=
  (({} : SymbolTable).internAll [⟨"pkg", "pkg", "parse"⟩, ⟨"lib", "lib", "run"⟩]).2

/-- With the used table `load` has the number 2 and `parse` the number 0, where they have 0 and 1
otherwise. Counted down from seven they have yet other numbers. The chain is the same. -/
theorem report_ignores_numbering_used :
    used.Reachable ∧
      (CallGraph.ofRecords (collectedWith used twins).1 {}).callers.map (·.index) = [2, 0] ∧
      (CallGraph.ofRecords (collectedWith used twins).1 {}).cycles {} =
        ["pkg.load -> pkg.parse -> pkg.load"] ∧
      Set.InjOn (7 - ·) (graphOf twins {}).numbers ∧
      ((graphOf twins {}).renumber (7 - ·)).cycles {} = ["pkg.load -> pkg.parse -> pkg.load"] := by
  have reachable : used.Reachable := SymbolTable.Reachable.empty.internAll _
  have chains : (graphOf twins {}).cycles {} = ["pkg.load -> pkg.parse -> pkg.load"] := by
    decide +kernel
  have small : ∀ number ∈ (graphOf twins {}).numbers, number ≤ 1 := by
    rintro number ⟨symbol, among, rfl⟩
    have listed : ∀ symbol ∈ (graphOf twins {}).symbols, symbol.index ≤ 1 := by decide +kernel
    exact listed symbol among
  have injective : Set.InjOn (7 - ·) (graphOf twins {}).numbers := by
    intro first here second there same
    have low := small first here
    have lowToo := small second there
    simp only at same
    omega
  obtain ⟨tables, renumbered⟩ := report_ignores_numbering {}
  refine ⟨reachable, by decide +kernel, ?_, injective, ?_⟩
  · have reported := (tables used reachable).1 twins
    rw [ofDocuments_value, chains] at reported
    exact (Except.ok.inj reported).symm
  · rw [renumbered (graphOf twins {}) (7 - ·) injective, chains]

end Analysis

end CyclicCalls
