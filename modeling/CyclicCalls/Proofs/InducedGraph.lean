import CyclicCalls.Proofs.RecordGraphs
import CyclicCalls.Proofs.TrailDiscipline
/-!
# Filtering takes the induced graph

A policy acts twice. Records of ignored callers get no row, and an ignored method closes
no cycle. The callees of a row are kept as they are, so a search still visits methods that
the policy ignores. They have no rows of their own there: they are *leaves*, like all
callees that were never declared.

Leaves do not matter. A search visits a leaf, finds no callees, and takes the step back at
once, so no leaf is on the trail when a cycle is closed. Two searches, one over a graph and
one over the graph without its leaves, go through the same trails and logs and differ only
in the leaves they have visited (`Agree`, `Scans.dropLeaves`). Without leaves all methods of
the graph are callers, and none of them is ignored; then a policy that ignores nothing
does as well (`cycles_congr`).

So a filtered analysis is an unfiltered one over the graph induced on the callers that the
policy does not ignore (`cycles_of_induced_graph`).
-/

set_option autoImplicit false

namespace CyclicCalls

namespace CallGraph

/-! ## Leaves -/

/-- The graph without the callees that have no row. -/
def dropLeaves (graph : CallGraph) : CallGraph :=
  { graph with rows := graph.rows.map (fun row => (row.1, row.2.filter graph.hasCaller)) }

variable {graph : CallGraph}

theorem hasCaller_iff {method : Symbol} :
    graph.hasCaller method = true ↔ ∃ caller ∈ graph.callers, caller.index = method.index := by
  simp [hasCaller, callers, Symbol.same]

@[simp] theorem callers_dropLeaves (graph : CallGraph) :
    graph.dropLeaves.callers = graph.callers := by
  simp [callers, dropLeaves]

theorem callees_dropLeaves (graph : CallGraph) (method : Symbol) :
    graph.dropLeaves.callees method = (graph.callees method).filter graph.hasCaller := by
  unfold dropLeaves callees
  rw [List.find?_map]
  simp only [Function.comp_def]
  cases graph.rows.find? (fun row => row.1.same method) with
  | none => rfl
  | some row => rfl

theorem callees_of_leaf {method : Symbol} (leaf : ¬ graph.hasCaller method = true) :
    graph.callees method = [] := by
  refine List.eq_nil_iff_forall_not_mem.mpr fun callee member => leaf ?_
  obtain ⟨caller, known, same⟩ := Calls.exists_caller member
  exact hasCaller_iff.mpr ⟨caller, known, same⟩

end CallGraph

/-- What is on a trail after a step is taken back was on it before. -/
theorem Trail.mem_members_of_drop {trail : Trail} {number : Nat}
    (member : number ∈ trail.drop.members) : number ∈ trail.members := by
  obtain ⟨steps, members⟩ := trail
  cases steps with
  | nil => exact member
  | cons latest earlier => exact (List.mem_filter.mp member).1

namespace Search

variable {graph : CallGraph} {policy : Policy}

/-! ## Searching without the leaves -/

/-- Two searches are at one point, up to the leaves that they have visited: their trails and
logs are the same, only callers are on the trail, and the same callers were visited. -/
structure Agree (graph : CallGraph) (state other : State) : Prop where
  trail : other.trail = state.trail
  log : other.log = state.log
  held : ∀ method : Symbol, state.trail.holds method = true → graph.hasCaller method = true
  visited : ∀ method : Symbol, graph.hasCaller method = true →
    other.knows method = state.knows method

namespace Agree

variable {state other : State} {method : Symbol}

theorem closes_eq (agree : Agree graph state other) (policy : Policy) (method : Symbol) :
    closes policy other method = closes policy state method := by
  unfold closes
  rw [agree.trail]

theorem close (agree : Agree graph state other) (method : Symbol) :
    Agree graph (state.close method) (other.close method) where
  trail := agree.trail
  log := by
    simp only [State.close]
    rw [agree.log, agree.trail]
  held := agree.held
  visited := agree.visited

theorem enter (agree : Agree graph state other) (caller : graph.hasCaller method = true) :
    Agree graph (state.enter method) (other.enter method) where
  trail := by
    rw [State.enter_trail, State.enter_trail, agree.trail]
  log := agree.log
  held := by
    intro step held
    rcases Trail.mem_members_push.mp (Trail.holds_iff.mp held) with same | earlier
    · obtain ⟨known, member, index⟩ := CallGraph.hasCaller_iff.mp caller
      exact CallGraph.hasCaller_iff.mpr ⟨known, member, index.trans same.symm⟩
    · exact agree.held step (Trail.holds_iff.mpr earlier)
  visited := by
    intro step known
    have before := agree.visited step known
    unfold State.knows at before ⊢
    rw [State.enter_visited, State.enter_visited, List.contains_cons, List.contains_cons, before]

theorem leave (agree : Agree graph state other) :
    Agree graph (state.leave 1) (other.leave 1) where
  trail := by
    show other.trail.drop = state.trail.drop
    rw [agree.trail]
  log := agree.log
  held := fun step held =>
    agree.held step (Trail.holds_iff.mpr (Trail.mem_members_of_drop (Trail.holds_iff.mp held)))
  visited := agree.visited

/-- Visiting a leaf on one side and taking the step back changes nothing that matters. -/
theorem skip (agree : Agree graph state other) (leaf : ¬ graph.hasCaller method = true) :
    Agree graph ((state.enter method).leave 1) other := by
  have fresh : method.index ∉ state.trail.members :=
    fun member => leaf (agree.held method (Trail.holds_iff.mpr member))
  have back : ((state.enter method).leave 1).trail = state.trail := Trail.drop_push fresh
  refine ⟨back ▸ agree.trail, agree.log, back ▸ agree.held, ?_⟩
  intro step known
  have other : step.index ≠ method.index := by
    intro same
    obtain ⟨caller, member, index⟩ := CallGraph.hasCaller_iff.mp known
    exact leaf (CallGraph.hasCaller_iff.mpr ⟨caller, member, index.trans same⟩)
  rw [agree.visited step known]
  simp [State.knows, other]

end Agree

/-- **Leaves do not matter to a scan.** What scanning a list does, scanning its callers does
in the graph without leaves. -/
theorem Scans.dropLeaves {methods : List Symbol} {state after other : State} {found : Bool}
    (scans : Scans graph policy methods state found after) (agree : Agree graph state other) :
    ∃ otherAfter, Scans graph.dropLeaves policy (methods.filter graph.hasCaller) other found
        otherAfter ∧ Agree graph after otherAfter := by
  induction scans generalizing other with
  | done => exact ⟨other, .done, agree⟩
  | @closed method later state closing =>
      have caller := agree.held method (held_of_closes closing)
      rw [List.filter_cons_of_pos caller]
      exact ⟨other.close method, .closed ((agree.closes_eq policy method).trans closing),
        agree.close method⟩
  | @known method later state after found notClosing seen _ ih =>
      obtain ⟨otherAfter, scans, agreeAfter⟩ := ih agree
      by_cases caller : graph.hasCaller method = true
      · rw [List.filter_cons_of_pos caller]
        exact ⟨otherAfter, .known ((agree.closes_eq policy method).trans notClosing)
          ((agree.visited method caller).trans seen) scans, agreeAfter⟩
      · rw [List.filter_cons_of_neg caller]
        exact ⟨otherAfter, scans, agreeAfter⟩
  | @unwound method later state inner notClosing unseen inside ih =>
      by_cases caller : graph.hasCaller method = true
      · obtain ⟨otherInner, scans, agreeInner⟩ := ih (agree.enter caller)
        rw [← CallGraph.callees_dropLeaves] at scans
        rw [List.filter_cons_of_pos caller]
        exact ⟨otherInner.leave 1, .unwound ((agree.closes_eq policy method).trans notClosing)
          ((agree.visited method caller).trans unseen) scans, agreeInner.leave⟩
      · rw [CallGraph.callees_of_leaf caller] at inside
        cases inside
  | @passed method later state inner after found notClosing unseen inside _ ih rest =>
      by_cases caller : graph.hasCaller method = true
      · obtain ⟨otherInner, scans, agreeInner⟩ := ih (agree.enter caller)
        obtain ⟨otherAfter, onward, agreeAfter⟩ := rest agreeInner.leave
        rw [← CallGraph.callees_dropLeaves] at scans
        rw [List.filter_cons_of_pos caller]
        exact ⟨otherAfter, .passed ((agree.closes_eq policy method).trans notClosing)
          ((agree.visited method caller).trans unseen) scans onward, agreeAfter⟩
      · rw [CallGraph.callees_of_leaf caller] at inside
        cases inside
        obtain ⟨otherAfter, onward, agreeAfter⟩ := rest (agree.skip caller)
        rw [List.filter_cons_of_neg caller]
        exact ⟨otherAfter, onward, agreeAfter⟩

/-- Searches from a caller agree. -/
theorem search_dropLeaves {root : Symbol} (caller : graph.hasCaller root = true)
    {state other : State} (agree : Agree graph state other) :
    Agree graph (search graph policy root state).2
      (search graph.dropLeaves policy root other).2 := by
  obtain ⟨otherAfter, scans, agreeAfter⟩ := (scans_search graph policy root state).dropLeaves agree
  rw [List.filter_cons_of_pos caller, List.filter_nil] at scans
  rw [scans.search_eq]
  exact agreeAfter

/-- Runs over callers agree. -/
theorem runFrom_dropLeaves {roots : List Symbol} (callers : ∀ root ∈ roots, root ∈ graph.callers)
    {state other : State} (empty : state.trail = {}) (agree : Agree graph state other) :
    Agree graph (runFrom graph policy roots state).1
      (runFrom graph.dropLeaves policy roots other).1 := by
  induction roots generalizing state other with
  | nil => exact agree
  | cons root roots ih =>
      have later := fun other member => callers other (List.mem_cons_of_mem root member)
      have caller : graph.hasCaller root = true :=
        CallGraph.hasCaller_iff.mpr ⟨root, callers root List.mem_cons_self, rfl⟩
      rw [runFrom_cons graph policy root roots empty,
        runFrom_cons graph.dropLeaves policy root roots (agree.trail.trans empty),
        agree.visited root caller]
      cases state.knows root with
      | true => exact ih later empty agree
      | false =>
          exact ih later (search_trail_empty graph policy root empty)
            (search_dropLeaves caller agree)

/-! ## Graphs and policies that are alike for the methods of a graph -/

section Alike

variable {other : CallGraph} {first second : Policy}

theorem closes_congr {method : Symbol} (same : first.ignores method = second.ignores method)
    (state : State) : closes first state method = closes second state method := by
  unfold closes
  rw [same]

/-- A scan of methods of a graph goes the same way in another graph that has the same callees for
them, and with another policy that ignores the same of them. -/
theorem Scans.congr
    (callees : ∀ method ∈ graph.symbols, other.callees method = graph.callees method)
    (same : ∀ method ∈ graph.symbols, first.ignores method = second.ignores method)
    {methods : List Symbol} {state after : State} {found : Bool}
    (scans : Scans graph first methods state found after)
    (symbols : ∀ method ∈ methods, method ∈ graph.symbols) :
    Scans other second methods state found after := by
  induction scans with
  | done => exact .done
  | @closed method later state closing =>
      exact .closed (closes_congr (same method (symbols method List.mem_cons_self)) state ▸ closing)
  | @known method later state after found notClosing seen _ ih =>
      exact .known
        (closes_congr (same method (symbols method List.mem_cons_self)) state ▸ notClosing) seen
        (ih fun other member => symbols other (List.mem_cons_of_mem _ member))
  | @unwound method later state inner notClosing unseen _ ih =>
      have symbol := symbols method List.mem_cons_self
      have below := ih fun _ => CallGraph.Calls.mem_symbols
      rw [← callees method symbol] at below
      exact .unwound (closes_congr (same method symbol) state ▸ notClosing) unseen below
  | @passed method later state inner after found notClosing unseen _ _ ih rest =>
      have symbol := symbols method List.mem_cons_self
      have below := ih fun _ => CallGraph.Calls.mem_symbols
      rw [← callees method symbol] at below
      exact .passed (closes_congr (same method symbol) state ▸ notClosing) unseen below
        (rest fun other member => symbols other (List.mem_cons_of_mem _ member))

theorem runFrom_congr
    (callees : ∀ method ∈ graph.symbols, other.callees method = graph.callees method)
    (same : ∀ method ∈ graph.symbols, first.ignores method = second.ignores method)
    {roots : List Symbol} (symbols : ∀ root ∈ roots, root ∈ graph.symbols) (state : State) :
    runFrom graph first roots state = runFrom other second roots state := by
  induction roots generalizing state with
  | nil => rfl
  | cons root roots ih =>
      have later := fun other member => symbols other (List.mem_cons_of_mem root member)
      have scans := (scans_search graph first root state).congr callees same
        (fun method member => List.mem_singleton.mp member ▸ symbols root List.mem_cons_self)
      simp only [runFrom, scans.search_eq, ih later]

end Alike

end Search

namespace CallGraph

open Search

variable {graph : CallGraph}

/-- **Leaves do not matter to the chains of a graph.** -/
theorem cycles_dropLeaves (graph : CallGraph) (policy : Policy) :
    graph.dropLeaves.cycles policy = graph.cycles policy := by
  have start : Agree graph {} {} := ⟨rfl, rfl, fun _ held => (nomatch held), fun _ _ => rfl⟩
  have agree : Agree graph (runFrom graph policy graph.callers {}).1
      (runFrom graph.dropLeaves policy graph.callers {}).1 :=
    runFrom_dropLeaves (fun _ => id) rfl start
  unfold cycles run
  rw [callers_dropLeaves, agree.log]

/-- Policies that ignore the same methods of a graph give the same chains. -/
theorem cycles_congr {first second : Policy}
    (same : ∀ method ∈ graph.symbols, first.ignores method = second.ignores method) :
    graph.cycles first = graph.cycles second := by
  unfold cycles run
  rw [runFrom_congr (fun _ _ => rfl) same fun _ => mem_symbols_of_caller]

/-! ## The induced graph -/

/-- The graph restricted to the callers that a policy does not ignore and to the calls
between them. -/
def inducedBy (graph : CallGraph) (policy : Policy) : CallGraph :=
  { graph with
    rows := (graph.rows.filter (fun row => !policy.ignores row.1)).map (fun row =>
      (row.1, row.2.filter (fun callee => graph.hasCaller callee && !policy.ignores callee))) }

/-- No method of an induced graph is ignored. -/
theorem not_ignored_of_mem_symbols_inducedBy {policy : Policy} {symbol : Symbol}
    (among : symbol ∈ (graph.inducedBy policy).symbols) : policy.ignores symbol = false := by
  obtain ⟨row, member, mentioned⟩ := List.mem_flatMap.mp among
  obtain ⟨full, kept, rfl⟩ := List.mem_map.mp member
  rcases List.mem_cons.mp mentioned with rfl | callee
  · simpa using (List.mem_filter.mp kept).2
  · simpa using (Bool.and_eq_true_iff.mp (List.mem_filter.mp callee).2).2

section Records

variable {table : SymbolTable} (reachable : table.Reachable) {records : List CallRecord}
  (fromTable : CallRecord.AllOver records table) (policy : Policy)

include reachable fromTable

/-- A method has a row in a graph made with a policy when it has one in the whole graph and
is not ignored. -/
theorem hasCaller_ofRecords {method : Symbol} (symbol : method ∈ table.symbols) :
    (ofRecords records policy).hasCaller method =
      ((ofRecords records {}).hasCaller method && !policy.ignores method) := by
  have equal : ∀ row ∈ (ofRecords records {}).rows, row.1.same method = true → row.1 = method :=
    fun row member same => reachable.eq_of_index
      (ofRecords_over fromTable {} _ (mem_symbols_of_caller (List.mem_map_of_mem member)))
      symbol (Symbol.same_iff.mp same)
  rw [Bool.eq_iff_iff, Bool.and_eq_true, hasCaller, hasCaller,
    rows_ofRecords reachable fromTable policy, List.any_eq_true, List.any_eq_true]
  constructor
  · rintro ⟨row, kept, same⟩
    obtain ⟨member, regarded⟩ := List.mem_filter.mp kept
    exact ⟨⟨row, member, same⟩, equal row member same ▸ regarded⟩
  · rintro ⟨⟨row, member, same⟩, regarded⟩
    exact ⟨row, List.mem_filter.mpr ⟨member, equal row member same ▸ regarded⟩, same⟩

/-- A graph made with a policy is, without its leaves, the induced one. -/
theorem dropLeaves_ofRecords :
    (ofRecords records policy).dropLeaves = (ofRecords records {}).inducedBy policy := by
  unfold dropLeaves inducedBy
  rw [rows_ofRecords reachable fromTable policy]
  congr 1
  refine List.map_congr_left fun row member => ?_
  congr 1
  refine List.filter_congr fun callee listed =>
    hasCaller_ofRecords reachable fromTable policy (ofRecords_over fromTable {} callee ?_)
  exact List.mem_flatMap.mpr
    ⟨row, (List.mem_filter.mp member).1, List.mem_cons_of_mem _ listed⟩

end Records

/-- **Filtering takes the induced graph.** For records with symbols of one table, a graph
made and searched with a policy has the chains, in the same order, of the whole graph
restricted to the callers that the policy does not ignore and to the calls between them,
searched with the policy that ignores nothing. -/
theorem cycles_of_induced_graph {table : SymbolTable} (reachable : table.Reachable)
    {records : List CallRecord} (fromTable : CallRecord.AllOver records table) (policy : Policy) :
    (ofRecords records policy).cycles policy =
      ((ofRecords records {}).inducedBy policy).cycles {} := by
  rw [← cycles_dropLeaves, dropLeaves_ofRecords reachable fromTable policy]
  refine cycles_congr fun method member => ?_
  rw [not_ignored_of_mem_symbols_inducedBy member, Policy.ignores_default]

end CallGraph

namespace Sample

/-- The records of the small graph, with one call more: `parse` calls `main`. -/
def records : List CallRecord :=
  [⟨main, [some load]⟩, ⟨load, [some parse, none, some retry]⟩, ⟨parse, [some main, some load]⟩,
    ⟨retry, [some retry]⟩]

theorem records_over : CallRecord.AllOver records table := by
  unfold CallRecord.AllOver
  decide

end Sample

/-- Without `main`, a leaf that the search passes over, the chains are those of the other
three methods. -/
theorem CallGraph.cycles_of_induced_graph_sample :
    CallRecord.AllOver Sample.records Sample.table ∧
      ((CallGraph.ofRecords Sample.records {}).inducedBy ⟨"app", ["app.main"]⟩).cycles {} =
        ["app.load -> app.parse -> app.load", "app.retry -> app.retry"] := by
  refine ⟨Sample.records_over, ?_⟩
  rw [← cycles_of_induced_graph Sample.table_reachable Sample.records_over]
  exact Search.cycles_eq_of_guarded (show Search.guardedRunFrom
    (CallGraph.ofRecords Sample.records ⟨"app", ["app.main"]⟩) ⟨"app", ["app.main"]⟩
    (CallGraph.ofRecords Sample.records ⟨"app", ["app.main"]⟩).callers {} =
      .ok ⟨[3, 0, 2, 1], {}, ⟨["app.load -> app.parse -> app.load",
        "app.retry -> app.retry"]⟩⟩ from rfl)

end CyclicCalls
