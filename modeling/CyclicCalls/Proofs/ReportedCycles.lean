import CyclicCalls.Proofs.CallCycles
import CyclicCalls.Proofs.TracedSearch
import CyclicCalls.Proofs.TrailDiscipline
import Mathlib.Data.List.Nodup
/-!
# Reported chains are cycles

The steps of a trail are a path of the graph: each one was visited as a callee of
the step before it (`Trail.Linked`). A method that closes a cycle is a callee of
the latest step and stands among the steps. Cutting the path at that method and
closing it there gives a cycle that starts at the method
(`Trail.Linked.isCycle_closedBy`).

A scan that closes a cycle does so at one point, and neither takes down nor keeps
anything else (`Scans.exists_closing`). What holds there is collected in `Closing`; in particular
the steps at that point are those of the state in which the scan began, or were
not visited in it. It follows that every chain of a run names the methods of a
cycle of the graph whose first method the policy does not ignore
(`cycles_are_call_cycles`).
-/

set_option autoImplicit false

namespace CyclicCalls

/-! ## Trails as paths -/

namespace Trail

variable {graph : CallGraph} {trail : Trail}

/-- Every step is a symbol of the graph and is called by the step before it. -/
structure Linked (graph : CallGraph) (trail : Trail) : Prop where
  symbols : ∀ step ∈ trail.steps, step ∈ graph.symbols
  calls : trail.steps.IsChain (fun later earlier => graph.Calls earlier later)

/-- A symbol of the graph that the latest step calls, if there is one. -/
structure Offers (graph : CallGraph) (trail : Trail) (method : Symbol) : Prop where
  symbol : method ∈ graph.symbols
  called : ∀ latest ∈ trail.steps.head?, graph.Calls latest method

theorem linked_empty : ({} : Trail).Linked graph :=
  ⟨fun _ among => (nomatch among), .nil⟩

theorem offers_empty {method : Symbol} (symbol : method ∈ graph.symbols) :
    ({} : Trail).Offers graph method :=
  ⟨symbol, fun _ among => nomatch among⟩

/-- After a method is visited, its callees are on offer. -/
theorem offers_callee {method callee : Symbol} (calls : callee ∈ graph.callees method) :
    (trail.push method).Offers graph callee := by
  refine ⟨CallGraph.Calls.mem_symbols calls, ?_⟩
  intro latest top
  cases top
  exact calls

theorem Linked.push (linked : trail.Linked graph) {method : Symbol}
    (offers : trail.Offers graph method) : (trail.push method).Linked graph where
  symbols := by
    intro step among
    rcases List.mem_cons.mp among with rfl | earlier
    · exact offers.symbol
    · exact linked.symbols step earlier
  calls := List.isChain_cons.mpr ⟨offers.called, linked.calls⟩

/-- What is left of a list from the first step of a method on. -/
theorem dropWhile_eq_cons {steps : List Symbol} {method : Symbol} (among : method ∈ steps)
    (unique : ∀ step ∈ steps, step.index = method.index → step = method) :
    ∃ before rest, steps = before ++ method :: rest ∧
      steps.dropWhile (fun step => !step.same method) = method :: rest := by
  induction steps with
  | nil => exact nomatch among
  | cons head steps ih =>
      cases same : head.same method with
      | true =>
          have equal := unique head List.mem_cons_self (beq_iff_eq.mp same)
          subst equal
          exact ⟨[], steps, rfl, by simp [same]⟩
      | false =>
          have later : method ∈ steps := by
            rcases List.mem_cons.mp among with rfl | later
            · simp [Symbol.same] at same
            · exact later
          obtain ⟨before, rest, split, dropped⟩ :=
            ih later fun step member => unique step (List.mem_cons_of_mem _ member)
          refine ⟨head :: before, rest, ?_, ?_⟩
          · rw [split]
            rfl
          · rw [List.dropWhile_cons, same]
            exact dropped

/-- **Cutting the path at a repeated method gives a cycle.** -/
theorem Linked.isCycle_closedBy (linked : trail.Linked graph) (unambiguous : graph.Unambiguous)
    (distinct : (trail.steps.map Symbol.index).Nodup) (backed : trail.Backed) {method : Symbol}
    (offers : trail.Offers graph method) (held : trail.holds method = true) :
    ∃ rest, trail.closedBy method = method :: rest ++ [method] ∧ graph.IsCycle method rest ∧
      ∀ step ∈ method :: rest, step ∈ trail.steps := by
  have unique : ∀ step ∈ trail.toList, step.index = method.index → step = method :=
    fun step among same =>
      unambiguous (linked.symbols step (List.mem_reverse.mp among)) offers.symbol same
  have among : method ∈ trail.toList := by
    obtain ⟨step, member, same⟩ := List.mem_map.mp (backed _ (holds_iff.mp held))
    have listed : step ∈ trail.toList := List.mem_reverse.mpr member
    exact unique step listed same ▸ listed
  obtain ⟨before, rest, split, dropped⟩ := dropWhile_eq_cons among unique
  -- The steps are kept latest first, so the path runs through them backwards.
  have path : List.IsChain graph.Calls (trail.toList ++ [method]) := by
    have extended : List.IsChain (fun later earlier => graph.Calls earlier later)
        (method :: trail.steps) := List.isChain_cons.mpr ⟨offers.called, linked.calls⟩
    rw [← List.isChain_reverse, List.reverse_cons] at extended
    exact extended
  have once : trail.toList.Nodup := List.nodup_reverse.mpr (List.Nodup.of_map _ distinct)
  rw [split] at path once
  rw [List.append_assoc] at path
  refine ⟨rest, ?_, ⟨once.of_append_right, path.right_of_append⟩, ?_⟩
  · rw [closedBy, dropped]
  · intro step member
    refine List.mem_reverse.mp ?_
    show step ∈ trail.toList
    rw [split]
    exact List.mem_append_right _ member

end Trail

namespace Search

/-! ## The point at which a cycle is closed -/

/-- A scan that led from `state` to `after` closed its cycle in the state `point`, on
arriving at `method`. -/
structure Closing (graph : CallGraph) (policy : Policy) (state after point : State)
    (method : Symbol) : Prop where
  closes : closes policy point method = true
  wellFormed : point.WellFormed
  linked : point.trail.Linked graph
  offers : point.trail.Offers graph method
  /-- What is on the trail was there at the start of the scan, or is new. -/
  steps : ∀ step ∈ point.trail.steps, step ∈ state.trail.steps ∨ state.knows step = false
  visited : after.visited = point.visited
  log : after.log = state.log.add (chainOf (point.trail.closedBy method))

variable {graph : CallGraph} {policy : Policy}

/-- A scan that closes no cycle takes down nothing. -/
theorem Scans.log_eq {methods : List Symbol} {state after : State}
    (scans : Scans graph policy methods state false after) : after.log = state.log := by
  generalize clear : false = found at scans
  induction scans with
  | done => rfl
  | closed _ => cases clear
  | known _ _ _ ih => exact ih clear
  | unwound _ _ _ _ => cases clear
  | passed _ _ _ _ inside rest => exact (rest clear).trans (inside rfl)

namespace Closing

variable {state middle after point : State} {method last : Symbol}

/-- A cycle closed below a method that is visited first is closed in the scan of that
method. -/
theorem of_enter (unseen : state.knows method = false)
    (closing : Closing graph policy (state.enter method) after point last) :
    Closing graph policy state (after.leave 1) point last := by
  refine { closing with steps := ?_ }
  intro step among
  rcases closing.steps step among with onTrail | fresh
  · -- The step that was made for `method` is new to this scan.
    rcases List.mem_cons.mp onTrail with rfl | earlier
    · exact .inr unseen
    · exact .inl earlier
  · exact .inr (State.not_knows_of_subset (List.subset_cons_self _ _) fresh)

/-- A cycle closed after a part of the scan that closed none. -/
theorem of_keeps (kept : Keeps state middle) (clear : middle.log = state.log)
    (closing : Closing graph policy middle after point last) :
    Closing graph policy state after point last := by
  refine { closing with steps := ?_, log := clear ▸ closing.log }
  intro step among
  rcases closing.steps step among with onTrail | fresh
  · exact .inl (kept.trail ▸ onTrail)
  · exact .inr (State.not_knows_of_subset kept.visited fresh)

end Closing

/-- What visiting a method keeps, and passing over a method below which no cycle is
closed. -/
structure Kept (graph : CallGraph) (policy : Policy) (motive : State → Prop) : Prop where
  enter : ∀ {state : State} {method : Symbol}, motive state → motive (state.enter method)
  pass : ∀ {state after : State} {method : Symbol}, state.WellFormed →
    Scans graph policy [method] state false after → motive state → motive after

/-- A scan that closes a cycle does so at one point. What is kept on the way holds
there. With the list as the innermost frame, the traced loop keeps the cycle closed at
that point, and unwinds altogether. -/
theorem Scans.exists_closing {motive : State → Prop} (kept : Kept graph policy motive)
    {methods : List Symbol} {state after : State}
    (scans : Scans graph policy methods state true after) (wellFormed : state.WellFormed)
    (linked : state.trail.Linked graph)
    (offers : ∀ method ∈ methods, state.trail.Offers graph method) (start : motive state) :
    ∃ point method, Closing graph policy state after point method ∧ motive point ∧
      ∀ outer earlier, tracedScan graph policy (methods :: outer) ⟨state, earlier⟩ =
        (true, ⟨after.leave (outer.length + 1), earlier ++ [point.trail.closedBy method]⟩) := by
  generalize success : true = found at scans
  induction scans with
  | done => cases success
  | @closed method later state closing =>
      refine ⟨state, method, ⟨closing, wellFormed, linked, offers method List.mem_cons_self,
        fun step among => .inl among, rfl, rfl⟩, start, ?_⟩
      intro outer earlier
      rw [tracedScan, if_pos closing]
      rfl
  | known notClosing seen _ ih =>
      obtain ⟨point, last, closing, holds, trace⟩ := ih wellFormed linked
        (fun method member => offers method (List.mem_cons_of_mem _ member)) start success
      refine ⟨point, last, closing, holds, fun outer earlier => ?_⟩
      rw [tracedScan, if_neg (by simp [notClosing]), if_pos seen]
      exact trace outer earlier
  | @unwound method later state inner notClosing unseen _ ih =>
      obtain ⟨point, last, closing, holds, trace⟩ := ih (wellFormed.enter unseen)
        (linked.push (offers method List.mem_cons_self)) (fun _ => Trail.offers_callee)
        (kept.enter start) rfl
      refine ⟨point, last, closing.of_enter unseen, holds, fun outer earlier => ?_⟩
      rw [tracedScan, if_neg (by simp [notClosing]), if_neg (by simp [unseen])]
      exact trace (later :: outer) earlier
  | @passed method later state inner after found notClosing unseen inside _ _ rest =>
      have left := (inside.keeps (wellFormed.enter unseen)).leave wellFormed unseen
      have offered : ∀ other ∈ later, (inner.leave 1).trail.Offers graph other := by
        intro other member
        rw [left.trail]
        exact offers other (List.mem_cons_of_mem _ member)
      obtain ⟨point, last, closing, holds, trace⟩ := rest (left.wellFormed wellFormed)
        (left.trail.symm ▸ linked) offered
        (kept.pass wellFormed (.passed notClosing unseen inside .done) start) success
      refine ⟨point, last, closing.of_keeps left inside.log_eq, holds, fun outer earlier => ?_⟩
      rw [tracedScan, if_neg (by simp [notClosing]), if_neg (by simp [unseen]),
        inside.tracedScan_clear (later :: outer)]
      exact trace outer earlier

/-- The cycle that a scan closes. -/
theorem Closing.exists_cycle {state after point : State} {method : Symbol}
    (closing : Closing graph policy state after point method) (unambiguous : graph.Unambiguous) :
    ∃ rest, point.trail.closedBy method = method :: rest ++ [method] ∧
      graph.IsCycle method rest ∧ policy.ignores method = false ∧
      after.log = state.log.add (chainOf (method :: rest ++ [method])) ∧
      ∀ step ∈ method :: rest,
        (step ∈ state.trail.steps ∨ state.knows step = false) ∧ after.knows step = true := by
  obtain ⟨regarded, held⟩ := Bool.and_eq_true_iff.mp closing.closes
  obtain ⟨rest, closed, cycle, among⟩ := closing.linked.isCycle_closedBy unambiguous
    closing.wellFormed.distinct closing.wellFormed.backed closing.offers held
  refine ⟨rest, closed, cycle, by simpa using regarded, closed ▸ closing.log, ?_⟩
  intro step member
  have onTrail := among step member
  exact ⟨closing.steps step onTrail,
    State.knows_of_subset (closing.visited ▸ List.Subset.refl _)
      (closing.wellFormed.visited step onTrail)⟩

/-- What is known of a search over an empty trail that led from `state` to `after` and
closed the cycle of the given methods: they are visited for the first time, and no
other cycle is taken down or kept. -/
structure Found (graph : CallGraph) (policy : Policy) (root : Symbol) (state after : State)
    (first : Symbol) (rest : List Symbol) : Prop where
  cycle : graph.IsCycle first rest
  regarded : policy.ignores first = false
  fresh : ∀ method ∈ first :: rest, state.knows method = false
  visited : ∀ method ∈ first :: rest, after.knows method = true
  log : after.log = state.log.add (chainOf (first :: rest ++ [first]))
  traced : ∀ earlier, tracedSearch graph policy root ⟨state, earlier⟩ =
    (true, ⟨after, earlier ++ [first :: rest ++ [first]]⟩)

/-- A search over an empty trail that closes a cycle finds that cycle only. What is kept
on the way holds where it is closed. -/
theorem search_found_of_kept {motive : State → Prop} (kept : Kept graph policy motive)
    (unambiguous : graph.Unambiguous) {root : Symbol} (symbol : root ∈ graph.symbols)
    {state after : State} (empty : state.trail = {}) (start : motive state)
    (outcome : search graph policy root state = (true, after)) :
    ∃ first rest point, Found graph policy root state after first rest ∧
      Closing graph policy state after point first ∧ motive point := by
  have scans := scans_search graph policy root state
  have wellFormed := State.wellFormed_of_trail_empty empty
  rw [outcome] at scans
  cases scans with
  | closed closing =>
      have held := held_of_closes closing
      rw [empty] at held
      exact nomatch held
  | known _ _ rest => cases rest
  | passed _ _ _ rest => cases rest
  | @unwound _ _ _ inner notClosing unseen inside =>
      have linked : (state.enter root).trail.Linked graph :=
        Trail.Linked.push (empty ▸ Trail.linked_empty) (empty ▸ Trail.offers_empty symbol)
      obtain ⟨point, first, below, holds, trace⟩ := inside.exists_closing kept
        (wellFormed.enter unseen) linked (fun _ => Trail.offers_callee) (kept.enter start)
      have closing := below.of_enter unseen
      obtain ⟨rest, closed, cycle, regarded, log, visits⟩ := closing.exists_cycle unambiguous
      refine ⟨first, rest, point, ⟨cycle, regarded, ?_, fun method member =>
        (visits method member).2, log, ?_⟩, closing, holds⟩
      · intro method member
        rcases (visits method member).1 with onTrail | fresh
        · rw [empty] at onTrail
          exact nomatch onTrail
        · exact fresh
      · intro earlier
        rw [tracedSearch, if_neg (by simp [notClosing]), if_neg (by simp [unseen]), ← closed]
        exact trace [] earlier

theorem search_found (unambiguous : graph.Unambiguous) {root : Symbol}
    (symbol : root ∈ graph.symbols) {state : State} (empty : state.trail = {})
    (found : (search graph policy root state).1 = true) :
    ∃ first rest,
      Found graph policy root state (search graph policy root state).2 first rest := by
  have nothing : Kept graph policy (fun _ => True) := ⟨fun _ => trivial, fun _ _ _ => trivial⟩
  obtain ⟨first, rest, _, closed, _⟩ := search_found_of_kept nothing unambiguous symbol empty
    trivial (Prod.ext found rfl : search graph policy root state = (true, _))
  exact ⟨first, rest, closed⟩

/-- A search that closes no cycle takes down nothing. -/
theorem search_clear {root : Symbol} {state : State}
    (clear : (search graph policy root state).1 = false) :
    (search graph policy root state).2.log = state.log := by
  have scans := scans_search graph policy root state
  rw [clear] at scans
  exact scans.log_eq

end Search

/-! ## The chains of a run -/

namespace CallGraph

open Search

variable {graph : CallGraph} {policy : Policy}

/-- Every chain of an unambiguous graph names the methods of a cycle. -/
theorem exists_cycle_of_mem_cycles (unambiguous : graph.Unambiguous) {chain : String}
    (reported : chain ∈ graph.cycles policy) :
    ∃ first rest, chain = chainOf (first :: rest ++ [first]) ∧ graph.IsCycle first rest ∧
      policy.ignores first = false := by
  refine runFrom_induction graph policy
    (motive := fun state => ∀ chain ∈ state.log.chains, ∃ first rest,
      chain = chainOf (first :: rest ++ [first]) ∧ graph.IsCycle first rest ∧
        policy.ignores first = false)
    ?_ (rfl : ({} : State).trail = {}) (fun _ member => nomatch member) chain reported
  intro root among state empty _ earlier chain member
  cases found : (search graph policy root state).1 with
  | false =>
      rw [search_clear found] at member
      exact earlier chain member
  | true =>
      obtain ⟨first, rest, closed⟩ :=
        search_found unambiguous (mem_symbols_of_caller among) empty found
      rw [closed.log] at member
      rcases ChainLog.mem_add.mp member with known | rfl
      · exact earlier chain known
      · exact ⟨first, rest, rfl, closed.cycle, closed.regarded⟩

/-- **Every reported chain is a cycle of calls.** A run over a graph with symbols of
one table ends at no root, and each of its chains names distinct methods, each of
which calls the next, closed by the first one, which the policy does not ignore. -/
theorem cycles_are_call_cycles {table : SymbolTable} (reachable : table.Reachable)
    {graph : CallGraph} (fromTable : graph.Over table) (policy : Policy) :
    (run graph policy {}).2 = none ∧
      ∀ chain ∈ graph.cycles policy, ∃ first rest,
        chain = chainOf (first :: rest ++ [first]) ∧ (first :: rest).Nodup ∧
          List.IsChain graph.Calls (first :: rest ++ [first]) ∧
          policy.ignores first = false := by
  refine ⟨runFrom_not_stopped graph policy graph.callers rfl, fun chain reported => ?_⟩
  obtain ⟨first, rest, named, cycle, regarded⟩ :=
    exists_cycle_of_mem_cycles (fromTable.unambiguous reachable) reported
  exact ⟨first, rest, named, cycle.distinct, cycle.calls, regarded⟩

/-- Behind the tail from `main`, `load` closes a cycle through an ignored method. -/
theorem cycles_are_call_cycles_sample :
    "app.load -> app.parse -> app.load" ∈ Sample.graph.cycles ⟨"app", ["app.parse"]⟩ ∧
      ∃ first rest, "app.load -> app.parse -> app.load" = chainOf (first :: rest ++ [first]) ∧
        (first :: rest).Nodup ∧
        List.IsChain Sample.graph.Calls (first :: rest ++ [first]) ∧
        Policy.ignores ⟨"app", ["app.parse"]⟩ first = false := by
  have reported : "app.load -> app.parse -> app.load" ∈
      Sample.graph.cycles ⟨"app", ["app.parse"]⟩ := by
    rw [cycles_eq_of_guarded (show guardedRunFrom Sample.graph ⟨"app", ["app.parse"]⟩
      Sample.graph.callers {} = .ok ⟨[3, 2, 1, 0], {}, ⟨["app.load -> app.parse -> app.load",
        "app.retry -> app.retry"]⟩⟩ from rfl)]
    exact List.mem_cons_self
  exact ⟨reported,
    (cycles_are_call_cycles Sample.table_reachable Sample.graph_over _).2 _ reported⟩

end CallGraph

end CyclicCalls
