import CyclicCalls.Proofs.CleanVerdict
import CyclicCalls.Proofs.InducedGraph
import Mathlib.Logic.Relation
/-!
# What one search does

A search from a method, started over an empty trail, may visit whatever a path of unvisited
methods leads to, and nothing else (`Scans.visited_open`). Whether it visits all of that
depends on its answer. If it closes no cycle, it has scanned the callees of everything it
visited, so what it visited is closed under calls to unvisited methods, and all of these
paths were followed to the end (`mem_visited_search_iff`). If it closes a cycle, the rest of
the search is given up; the methods of the cycle were reached by such paths
(`Scans.exists_chain_within`).

This holds in every graph and with every policy. That a search finds a cycle whenever there
is one among the methods it may visit needs a policy that ignores no caller. It also needs
that symbols with the number of a caller are not ignored under another key. In a graph with
symbols of one table there are no such symbols; in a graph that mixes tables there may be,
and then the cycle is missed (`borrowed_symbol_hides_cycle`).

Since symbols are told apart by their numbers alone, the methods of a search are spoken of
by number here.
-/

set_option autoImplicit false

namespace CyclicCalls

namespace CallGraph

variable {graph : CallGraph} {visited : List Nat} {start number : Nat}

/-! ## Paths of unvisited methods -/

/-- A method with the first number calls a method with the second. -/
def Links (graph : CallGraph) (caller callee : Nat) : Prop :=
  ∃ source target : Symbol, source.index = caller ∧ target.index = callee ∧
    graph.Calls source target

theorem Calls.links {caller callee : Symbol} (calls : graph.Calls caller callee) :
    graph.Links caller.index callee.index :=
  ⟨caller, callee, rfl, rfl, calls⟩

/-- The callees of a method are those of its number. -/
theorem links_iff {method : Symbol} :
    graph.Links method.index number ↔ ∃ callee ∈ graph.callees method, callee.index = number := by
  constructor
  · rintro ⟨source, target, same, rfl, calls⟩
    exact ⟨target, callees_congr same ▸ calls, rfl⟩
  · rintro ⟨callee, member, rfl⟩
    exact Calls.links member

/-- The methods to which a path leads all of whose methods, both ends included, are not
visited. -/
def openFrom (graph : CallGraph) (visited : List Nat) (start : Nat) : Set Nat :=
  {number | start ∉ visited ∧ Relation.ReflTransGen
    (fun caller callee => graph.Links caller callee ∧ callee ∉ visited) start number}

theorem self_mem_openFrom (unseen : start ∉ visited) : start ∈ graph.openFrom visited start :=
  ⟨unseen, .refl⟩

theorem not_mem_of_mem_openFrom (reached : number ∈ graph.openFrom visited start) :
    number ∉ visited := by
  obtain ⟨unseen, path⟩ := reached
  cases path with
  | refl => exact unseen
  | tail _ step => exact step.2

/-- A path goes on along a call to an unvisited method. -/
theorem openFrom_tail {callee : Nat} (reached : number ∈ graph.openFrom visited start)
    (links : graph.Links number callee) (unseen : callee ∉ visited) :
    callee ∈ graph.openFrom visited start :=
  ⟨reached.1, reached.2.tail ⟨links, unseen⟩⟩

/-- A path may begin one call earlier. -/
theorem openFrom_head {next : Nat} (unseen : start ∉ visited) (links : graph.Links start next)
    (reached : number ∈ graph.openFrom visited next) : number ∈ graph.openFrom visited start :=
  ⟨unseen, .head ⟨links, reached.1⟩ reached.2⟩

/-- The more was visited, the fewer paths there are. -/
theorem openFrom_anti {more : List Nat} (grown : visited ⊆ more)
    (reached : number ∈ graph.openFrom more start) : number ∈ graph.openFrom visited start := by
  obtain ⟨unseen, path⟩ := reached
  refine ⟨fun seen => unseen (grown seen), Relation.ReflTransGen.mono ?_ _ _ path⟩
  rintro caller callee ⟨links, fresh⟩
  exact ⟨links, fun seen => fresh (grown seen)⟩

/-- The calls between methods of a set. -/
def LinksWithin (graph : CallGraph) (methods : Set Nat) (caller callee : Nat) : Prop :=
  caller ∈ methods ∧ callee ∈ methods ∧ graph.Links caller callee

/-- Some method of a set comes back to itself by calls between methods of the set. -/
def CyclicWithin (graph : CallGraph) (methods : Set Nat) : Prop :=
  ∃ number, Relation.TransGen (graph.LinksWithin methods) number number

/-- A chain of calls inside of a set that ends where it begins. -/
theorem cyclicWithin_of_isChain {methods : Set Nat} {first last : Symbol} {rest : List Symbol}
    (calls : List.IsChain graph.Calls (first :: rest ++ [last]))
    (inside : ∀ method ∈ first :: rest ++ [last], method.index ∈ methods)
    (same : first.index = last.index) : graph.CyclicWithin methods := by
  have path : Relation.TransGen (graph.LinksWithin methods) first.index last.index := by
    clear same
    induction rest generalizing first with
    | nil =>
        refine .single ⟨inside first (by simp), inside last (by simp), ?_⟩
        exact Calls.links (List.isChain_cons_cons.mp calls).1
    | cons second rest ih =>
        obtain ⟨step, onward⟩ := List.isChain_cons_cons.mp calls
        refine .head ⟨inside first (by simp), inside second (by simp), Calls.links step⟩ ?_
        exact ih onward fun method member => inside method (List.mem_cons_of_mem first member)
  exact ⟨first.index, same ▸ path⟩

end CallGraph

namespace Search

open CallGraph

variable {graph : CallGraph} {policy : Policy}

/-! ## Nothing else is visited -/

theorem State.not_mem_visited {state : State} {method : Symbol}
    (unseen : state.knows method = false) : method.index ∉ state.visited := by
  intro seen
  rw [State.knows_iff.mpr seen] at unseen
  exact Bool.false_ne_true unseen.symm

theorem Scans.visited_subset {methods : List Symbol} {state after : State} {found : Bool}
    (scans : Scans graph policy methods state found after) : state.visited ⊆ after.visited := by
  induction scans with
  | done => exact List.Subset.refl _
  | closed _ => exact List.Subset.refl _
  | known _ _ _ ih => exact ih
  | unwound _ _ _ ih => exact List.Subset.trans (List.subset_cons_self _ _) ih
  | passed _ _ _ _ inside rest =>
      exact List.Subset.trans (List.Subset.trans (List.subset_cons_self _ _) inside) rest

/-- What was visited below a method, beside what was visited before, is on a path from that
method. -/
theorem mem_openFrom_of_below {method : Symbol} {visited : List Nat} {number : Nat}
    (unseen : method.index ∉ visited)
    (below : number ∈ method.index :: visited ∨ ∃ callee ∈ graph.callees method,
      number ∈ graph.openFrom (method.index :: visited) callee.index) :
    number ∈ visited ∨ number ∈ graph.openFrom visited method.index := by
  rcases below with early | ⟨callee, member, reached⟩
  · rcases List.mem_cons.mp early with rfl | before
    · exact .inr (self_mem_openFrom unseen)
    · exact .inl before
  · refine .inr (openFrom_head unseen (Calls.links member) ?_)
    exact openFrom_anti (List.subset_cons_self _ _) reached

/-- **A scan visits only what paths of unvisited methods lead to.** -/
theorem Scans.visited_open {methods : List Symbol} {state after : State} {found : Bool}
    (scans : Scans graph policy methods state found after) {number : Nat}
    (member : number ∈ after.visited) :
    number ∈ state.visited ∨
      ∃ method ∈ methods, number ∈ graph.openFrom state.visited method.index := by
  induction scans generalizing number with
  | done => exact .inl member
  | closed _ => exact .inl member
  | known _ _ _ ih =>
      rcases ih member with before | ⟨method, later, reached⟩
      · exact .inl before
      · exact .inr ⟨method, List.mem_cons_of_mem _ later, reached⟩
  | @unwound first later state inner _ unseen _ ih =>
      rcases mem_openFrom_of_below (State.not_mem_visited unseen) (ih member) with
        before | reached
      · exact .inl before
      · exact .inr ⟨first, List.mem_cons_self, reached⟩
  | @passed first later state inner after found _ unseen scans _ inside rest =>
      rcases rest member with early | ⟨method, among, reached⟩
      · rcases mem_openFrom_of_below (State.not_mem_visited unseen) (inside early) with
          before | reached
        · exact .inl before
        · exact .inr ⟨first, List.mem_cons_self, reached⟩
      · have grown : state.visited ⊆ inner.visited :=
          List.Subset.trans (List.subset_cons_self _ _) scans.visited_subset
        exact .inr ⟨method, List.mem_cons_of_mem _ among, openFrom_anti grown reached⟩

theorem search_visited_open {method : Symbol} {state : State} {number : Nat}
    (member : number ∈ (search graph policy method state).2.visited) :
    number ∈ state.visited ∨ number ∈ graph.openFrom state.visited method.index := by
  rcases (scans_search graph policy method state).visited_open member with
    before | ⟨root, among, reached⟩
  · exact .inl before
  · exact .inr (List.mem_singleton.mp among ▸ reached)

/-! ## A search that closes no cycle -/

/-- **A scan that closes no cycle leaves nothing unscanned**: it has visited its list, and
the callees of whatever it visited. -/
theorem Scans.closes_up {methods : List Symbol} {state after : State}
    (scans : Scans graph policy methods state false after) :
    (∀ method ∈ methods, method.index ∈ after.visited) ∧
      ∀ number ∈ after.visited, number ∈ state.visited ∨
        ∀ callee, graph.Links number callee → callee ∈ after.visited := by
  generalize clear : false = found at scans
  induction scans with
  | done => exact ⟨by simp, fun number member => .inl member⟩
  | closed _ => cases clear
  | unwound _ _ _ _ => cases clear
  | @known first later state after found _ seen scans ih =>
      obtain ⟨listed, closed⟩ := ih clear
      refine ⟨?_, closed⟩
      intro method member
      rcases List.mem_cons.mp member with rfl | among
      · exact scans.visited_subset (State.knows_iff.mp seen)
      · exact listed method among
  | @passed first later state inner after found _ _ inside scans ih rest =>
      obtain ⟨callees, below⟩ := ih rfl
      obtain ⟨listed, closed⟩ := rest clear
      have kept : inner.visited ⊆ after.visited := scans.visited_subset
      refine ⟨?_, ?_⟩
      · intro method member
        rcases List.mem_cons.mp member with rfl | among
        · exact kept (inside.visited_subset List.mem_cons_self)
        · exact listed method among
      · intro number member
        rcases closed number member with early | scanned
        · rcases below number early with before | scanned
          · rcases List.mem_cons.mp before with rfl | before
            · -- The callees of the first method are the list that was scanned inside.
              refine .inr fun number links => ?_
              obtain ⟨callee, called, rfl⟩ := links_iff.mp links
              exact kept (callees callee called)
            · exact .inl before
          · exact .inr fun callee links => kept (scanned callee links)
        · exact .inr scanned

/-- After a search that closed no cycle exactly these methods are visited: those visited
before, and those to which a path of unvisited methods leads. -/
theorem mem_visited_search_iff {method : Symbol} {state : State}
    (clear : (search graph policy method state).1 = false) (number : Nat) :
    number ∈ (search graph policy method state).2.visited ↔
      number ∈ state.visited ∨ number ∈ graph.openFrom state.visited method.index := by
  constructor
  · exact search_visited_open
  · have scans := scans_search graph policy method state
    rw [clear] at scans
    obtain ⟨listed, closed⟩ := scans.closes_up
    rintro (before | ⟨unseen, path⟩)
    · exact scans.visited_subset before
    · -- Along the path every method is new, so its callees were scanned.
      induction path with
      | refl => exact listed method List.mem_cons_self
      | tail earlier step ih =>
          rcases closed _ ih with before | scanned
          · exact absurd before (not_mem_of_mem_openFrom ⟨unseen, earlier⟩)
          · exact scanned _ step.1

/-! ## A search that closes a cycle -/

/-- A scan of the given methods is confined to a set: what is on the trail is a path inside
of the set, and each method of the list is called by the latest step and was visited at the
start or is inside. -/
structure Confined (graph : CallGraph) (before : List Nat) (inside : Set Nat)
    (methods : List Symbol) (state : State) : Prop where
  wellFormed : state.WellFormed
  visited : before ⊆ state.visited
  steps : ∀ step ∈ state.trail.steps, step.index ∈ inside
  calls : state.trail.steps.IsChain (fun later earlier => graph.Calls earlier later)
  called : ∀ method ∈ methods, ∀ latest ∈ state.trail.steps.head?, graph.Calls latest method
  listed : ∀ method ∈ methods, method.index ∈ before ∨ method.index ∈ inside

namespace Confined

variable {before : List Nat} {inside : Set Nat} {first : Symbol} {later : List Symbol}
  {state : State}

theorem tail (confined : Confined graph before inside (first :: later) state) :
    Confined graph before inside later state where
  wellFormed := confined.wellFormed
  visited := confined.visited
  steps := confined.steps
  calls := confined.calls
  called := fun method member => confined.called method (List.mem_cons_of_mem first member)
  listed := fun method member => confined.listed method (List.mem_cons_of_mem first member)

/-- The rest of the list is confined after the first method was passed. -/
theorem pass (confined : Confined graph before inside (first :: later) state) {left : State}
    (keeps : Keeps state left) : Confined graph before inside later left where
  wellFormed := keeps.wellFormed confined.wellFormed
  visited := List.Subset.trans confined.visited keeps.visited
  steps := by
    rw [keeps.trail]
    exact confined.steps
  calls := by
    rw [keeps.trail]
    exact confined.calls
  called := by
    rw [keeps.trail]
    exact confined.tail.called
  listed := confined.tail.listed

/-- The callees of a method that is visited are confined, when the set is closed under calls
to methods that were unvisited at the start. -/
theorem enter (confined : Confined graph before inside (first :: later) state)
    (closed : ∀ caller ∈ inside, ∀ callee, graph.Links caller callee → callee ∉ before →
      callee ∈ inside)
    (unseen : state.knows first = false) :
    Confined graph before inside (graph.callees first) (state.enter first) := by
  have within : first.index ∈ inside := by
    rcases confined.listed first List.mem_cons_self with early | within
    · exact absurd (confined.visited early) (State.not_mem_visited unseen)
    · exact within
  refine ⟨confined.wellFormed.enter unseen, ?_, ?_, ?_, ?_, ?_⟩
  · exact List.Subset.trans confined.visited (List.subset_cons_self _ _)
  · intro step among
    rcases List.mem_cons.mp among with rfl | earlier
    · exact within
    · exact confined.steps step earlier
  · exact List.isChain_cons.mpr ⟨confined.called first List.mem_cons_self, confined.calls⟩
  · intro callee member latest top
    cases top
    exact member
  · intro callee member
    by_cases early : callee.index ∈ before
    · exact .inl early
    · exact .inr (closed first.index within callee.index (Calls.links member) early)

end Confined

/-- What is left of a list from the first step with the number of a method on. -/
theorem exists_dropWhile_eq {steps : List Symbol} {method : Symbol}
    (among : method.index ∈ steps.map Symbol.index) :
    ∃ skipped first rest, steps = skipped ++ first :: rest ∧ first.index = method.index ∧
      steps.dropWhile (fun step => !step.same method) = first :: rest := by
  induction steps with
  | nil => simp at among
  | cons head steps ih =>
      by_cases same : head.index = method.index
      · exact ⟨[], head, steps, rfl, same, by simp [Symbol.same, same]⟩
      · have later : method.index ∈ steps.map Symbol.index := by
          simpa [Ne.symm same] using among
        obtain ⟨skipped, first, rest, split, equal, dropped⟩ := ih later
        refine ⟨head :: skipped, first, rest, by simp [split], equal, ?_⟩
        simpa [Symbol.same, same] using dropped

/-- What is taken down when the first method of a confined scan closes a cycle. -/
theorem Confined.closedBy_eq {before : List Nat} {inside : Set Nat} {last : Symbol}
    {later : List Symbol} {state : State}
    (confined : Confined graph before inside (last :: later) state)
    (held : state.trail.holds last = true) :
    ∃ first rest, state.trail.closedBy last = first :: rest ++ [last] ∧
      first.index = last.index ∧ List.IsChain graph.Calls (first :: rest ++ [last]) ∧
      ∀ method ∈ first :: rest ++ [last], method.index ∈ inside := by
  have among : last.index ∈ state.trail.toList.map Symbol.index := by
    simpa [Trail.toList] using confined.wellFormed.backed _ (Trail.holds_iff.mp held)
  obtain ⟨skipped, first, rest, split, same, dropped⟩ := exists_dropWhile_eq among
  -- The steps are kept latest first, so the path runs through them backwards.
  have path : List.IsChain graph.Calls (state.trail.toList ++ [last]) := by
    have extended : List.IsChain (fun later earlier => graph.Calls earlier later)
        (last :: state.trail.steps) :=
      List.isChain_cons.mpr ⟨confined.called last List.mem_cons_self, confined.calls⟩
    rw [← List.isChain_reverse, List.reverse_cons] at extended
    exact extended
  have within : ∀ method ∈ first :: rest, method.index ∈ inside := by
    intro method member
    refine confined.steps method (List.mem_reverse.mp ?_)
    show method ∈ state.trail.toList
    rw [split]
    exact List.mem_append_right skipped member
  rw [split, List.append_assoc] at path
  refine ⟨first, rest, by rw [Trail.closedBy, dropped], same, path.right_of_append, ?_⟩
  intro method member
  rcases List.mem_append.mp member with among | closing
  · exact within method among
  · rw [List.mem_singleton.mp closing, ← same]
    exact within first List.mem_cons_self

/-- **The chain that a confined scan takes down** leads from a method back to its number by
calls inside of the set. -/
theorem Scans.exists_chain_within {before : List Nat} {inside : Set Nat}
    (closed : ∀ caller ∈ inside, ∀ callee, graph.Links caller callee → callee ∉ before →
      callee ∈ inside)
    {methods : List Symbol} {state after : State}
    (scans : Scans graph policy methods state true after)
    (confined : Confined graph before inside methods state) :
    ∃ first rest last, first.index = last.index ∧
      List.IsChain graph.Calls (first :: rest ++ [last]) ∧
      (∀ method ∈ first :: rest ++ [last], method.index ∈ inside) ∧
      after.log = state.log.add (chainOf (first :: rest ++ [last])) := by
  generalize success : true = found at scans
  induction scans with
  | done => cases success
  | @closed last later state closing =>
      obtain ⟨first, rest, taken, same, calls, within⟩ :=
        confined.closedBy_eq (held_of_closes closing)
      exact ⟨first, rest, last, same, calls, within, by rw [← taken]; rfl⟩
  | known _ _ _ ih => exact ih confined.tail success
  | unwound _ unseen _ ih => exact ih (confined.enter closed unseen) rfl
  | @passed first later state inner after found _ unseen scans _ _ rest =>
      have keeps :=
        (scans.keeps (confined.wellFormed.enter unseen)).leave confined.wellFormed unseen
      obtain ⟨first, others, last, same, calls, within, log⟩ := rest (confined.pass keeps) success
      refine ⟨first, others, last, same, calls, within, ?_⟩
      rw [log, State.leave_log, scans.log_eq, State.enter_log]

/-- A search over an empty trail that closes a cycle takes down one chain, of methods to which
paths of unvisited methods lead. -/
theorem search_exists_chain_within {method : Symbol} {state : State} (empty : state.trail = {})
    (found : (search graph policy method state).1 = true) :
    ∃ first rest last, first.index = last.index ∧
      List.IsChain graph.Calls (first :: rest ++ [last]) ∧
      (∀ other ∈ first :: rest ++ [last],
        other.index ∈ graph.openFrom state.visited method.index) ∧
      (search graph policy method state).2.log =
        state.log.add (chainOf (first :: rest ++ [last])) := by
  have scans := scans_search graph policy method state
  rw [found] at scans
  have closed : ∀ caller ∈ graph.openFrom state.visited method.index, ∀ callee,
      graph.Links caller callee → callee ∉ state.visited →
        callee ∈ graph.openFrom state.visited method.index := by
    intro caller reached callee links unseen
    exact openFrom_tail reached links unseen
  refine scans.exists_chain_within closed ?_
  refine ⟨State.wellFormed_of_trail_empty empty, List.Subset.refl _, ?_, ?_, ?_, ?_⟩
  · simp [empty]
  · simp [empty]
  · simp [empty]
  · intro other member
    rw [List.mem_singleton.mp member]
    by_cases seen : method.index ∈ state.visited
    · exact .inl seen
    · exact .inr (self_mem_openFrom seen)

/-! ## Cycles among the methods that a search may visit -/

/-- The symbols of a graph from which calls inside of a set lead to a number. -/
def leadingTo (graph : CallGraph) (inside : Set Nat) (number : Nat) : Set Symbol :=
  {method | method ∈ graph.symbols ∧
    Relation.TransGen (graph.LinksWithin inside) method.index number}

section Walks

variable {inside : Set Nat} {number : Nat}

/-- A walk inside of a set begins with a call, after which there is still a walk if the end
of the walk comes back to itself. -/
theorem exists_leadingTo {start : Nat}
    (walk : Relation.TransGen (graph.LinksWithin inside) start number)
    (back : Relation.TransGen (graph.LinksWithin inside) number number) :
    start ∈ inside ∧ ∃ source target, source.index = start ∧ graph.Calls source target ∧
      target ∈ leadingTo graph inside number := by
  obtain ⟨next, ⟨within, _, source, target, same, rfl, calls⟩, onward⟩ :=
    Relation.TransGen.head'_iff.mp walk
  exact ⟨within, source, target, same, calls, calls.mem_symbols, .trans_right onward back⟩

/-- A walk that comes back to itself makes a recurrent set, when no symbol with the number of
a caller is ignored. -/
theorem recurrent_leadingTo
    (regarded : ∀ method ∈ graph.symbols, graph.hasCaller method = true →
      policy.ignores method = false)
    (back : Relation.TransGen (graph.LinksWithin inside) number number) :
    Recurrent graph policy (leadingTo graph inside number) := by
  refine ⟨?_, ?_⟩
  · rintro method ⟨symbol, walk⟩
    obtain ⟨_, source, target, same, calls, _⟩ := exists_leadingTo walk back
    obtain ⟨caller, known, equal⟩ := calls.exists_caller
    exact regarded method symbol (hasCaller_iff.mpr ⟨caller, known, equal.trans same⟩)
  · rintro method ⟨_, walk⟩
    obtain ⟨_, source, target, same, calls, leads⟩ := exists_leadingTo walk back
    exact ⟨target, leads, show target ∈ graph.callees method from callees_congr same ▸ calls⟩

end Walks

/-- **A search does not miss all cycles among the methods it may visit.** -/
theorem search_found_of_cyclicWithin {method : Symbol} {state : State} (empty : state.trail = {})
    (regarded : ∀ other ∈ graph.symbols, graph.hasCaller other = true →
      policy.ignores other = false)
    (cyclic : graph.CyclicWithin (graph.openFrom state.visited method.index)) :
    (search graph policy method state).1 = true := by
  cases clear : (search graph policy method state).1 with
  | true => rfl
  | false =>
      obtain ⟨number, back⟩ := cyclic
      have recurrent := recurrent_leadingTo regarded back
      obtain ⟨_, _, target, _, _, leads⟩ := exists_leadingTo back back
      -- Nothing on the walk was visited before the search, and all of it is afterwards.
      have start : Pending (leadingTo graph (graph.openFrom state.visited method.index) number)
          state := by
        rintro other ⟨_, walk⟩ seen
        have fresh := not_mem_of_mem_openFrom (exists_leadingTo walk back).1
        exact absurd (State.knows_iff.mp seen) fresh
      have seen : (search graph policy method state).2.knows target = true := by
        refine State.knows_iff.mpr ((mem_visited_search_iff clear _).mpr (.inr ?_))
        exact (exists_leadingTo leads.2 back).1
      have held := (((scans_search graph policy method state).pending recurrent clear
        (State.wellFormed_of_trail_empty empty) start).1) target leads seen
      rw [search_trail_empty graph policy method empty] at held
      exact held

end Search

/-! ## The outcome of a search -/

namespace CallGraph

open Search

/-- In a graph with symbols of one table, no symbol with the number of a caller is ignored if
no caller is. -/
theorem Unambiguous.regarded {graph : CallGraph} (unambiguous : graph.Unambiguous)
    {policy : Policy} (regarded : ∀ caller ∈ graph.callers, policy.ignores caller = false) :
    ∀ method ∈ graph.symbols, graph.hasCaller method = true → policy.ignores method = false := by
  intro method symbol counted
  obtain ⟨caller, known, same⟩ := hasCaller_iff.mp counted
  have equal := unambiguous (mem_symbols_of_caller known) symbol same
  exact equal ▸ regarded caller known

/-- **What one search does.** A search from a method over an empty trail may visit the methods
to which paths of unvisited methods lead.

* If it answers that it closed no cycle, exactly these were visited beside those visited
  before, and the log is unchanged.
* If it answers that it closed one, some of these were visited, and the chain taken down leads
  from a method back to its number by calls between them.
* If no symbol with the number of a caller is ignored, the answer says whether there is a cycle
  among them. In a graph with symbols of one table this is so if no caller is ignored. -/
theorem search_covers_unvisited_paths (graph : CallGraph) (policy : Policy) (method : Symbol)
    {state : State} (empty : state.trail = {}) :
    ((search graph policy method state).1 = false →
      (∀ number, number ∈ (search graph policy method state).2.visited ↔
        number ∈ state.visited ∨ number ∈ graph.openFrom state.visited method.index) ∧
      (search graph policy method state).2.log = state.log) ∧
    ((search graph policy method state).1 = true →
      state.visited ⊆ (search graph policy method state).2.visited ∧
      (∀ number ∈ (search graph policy method state).2.visited,
        number ∈ state.visited ∨ number ∈ graph.openFrom state.visited method.index) ∧
      ∃ first rest last, first.index = last.index ∧
        List.IsChain graph.Calls (first :: rest ++ [last]) ∧
        (∀ other ∈ first :: rest ++ [last],
          other.index ∈ graph.openFrom state.visited method.index) ∧
        (search graph policy method state).2.log =
          state.log.add (chainOf (first :: rest ++ [last]))) ∧
    ((∀ other ∈ graph.symbols, graph.hasCaller other = true → policy.ignores other = false) →
      ((search graph policy method state).1 = true ↔
        graph.CyclicWithin (graph.openFrom state.visited method.index))) ∧
    ∀ table : SymbolTable, table.Reachable → graph.Over table →
      (∀ caller ∈ graph.callers, policy.ignores caller = false) →
      ((search graph policy method state).1 = true ↔
        graph.CyclicWithin (graph.openFrom state.visited method.index)) := by
  have decides : (∀ other ∈ graph.symbols, graph.hasCaller other = true →
      policy.ignores other = false) →
      ((search graph policy method state).1 = true ↔
        graph.CyclicWithin (graph.openFrom state.visited method.index)) := by
    intro regarded
    constructor
    · intro found
      obtain ⟨first, rest, last, same, calls, within, _⟩ := search_exists_chain_within empty found
      exact cyclicWithin_of_isChain calls within same
    · exact search_found_of_cyclicWithin empty regarded
  refine ⟨?_, ?_, decides, ?_⟩
  · intro clear
    exact ⟨mem_visited_search_iff clear, search_clear clear⟩
  · intro found
    refine ⟨(scans_search graph policy method state).visited_subset, ?_,
      search_exists_chain_within empty found⟩
    exact fun number => search_visited_open
  · intro table reachable fromTable regarded
    exact decides ((fromTable.unambiguous reachable).regarded regarded)

end CallGraph

/-! ## A cycle that is missed -/

namespace Sample

/-- A symbol of another table with the number of `main`. -/
def borrowed : Symbol := ⟨0, ⟨"lib", "lib", "main"⟩⟩

/-- Here `main` calls the symbol of the other table. -/
def mixed : CallGraph :=
  CallGraph.ofRecords [⟨main, [some borrowed]⟩] {}

end Sample

namespace CallGraph

open Search

/-- The policy looks at `app` only. It ignores no caller, and `main` calls its own number; yet
the search closes no cycle, for it arrives at the symbol of `lib`, which is ignored. -/
theorem borrowed_symbol_hides_cycle :
    (∀ caller ∈ Sample.mixed.callers, Policy.ignores ⟨"app", []⟩ caller = false) ∧
      Sample.mixed.CyclicWithin (Sample.mixed.openFrom [] Sample.main.index) ∧
      (search Sample.mixed ⟨"app", []⟩ Sample.main {}).1 = false := by
  refine ⟨by decide, ?_, ?_⟩
  · have start : Sample.main.index ∈ Sample.mixed.openFrom [] Sample.main.index :=
      self_mem_openFrom (by simp)
    have calls : Sample.mixed.Calls Sample.main Sample.borrowed := by decide
    exact ⟨Sample.main.index, .single ⟨start, start, calls.links⟩⟩
  · have outcome := guardedSearch_eq Sample.mixed ⟨"app", []⟩ Sample.main
      (State.wellFormed_of_trail_empty (rfl : ({} : State).trail = {})).backed
    have evaluated : guardedSearch Sample.mixed ⟨"app", []⟩ Sample.main {} =
        .ok (false, ⟨[0], {}, {}⟩) := rfl
    rw [evaluated, Except.ok.injEq] at outcome
    rw [← outcome]

/-- With `retry` visited before, a search from `main` may visit the other three methods of the
small graph, and finds the cycle among them. -/
theorem search_covers_unvisited_paths_partly :
    Sample.table.Reachable ∧ Sample.graph.Over Sample.table ∧
      (∀ caller ∈ Sample.graph.callers, ({} : Policy).ignores caller = false) ∧
      Sample.graph.CyclicWithin (Sample.graph.openFrom [3] Sample.main.index) ∧
      (search Sample.graph {} Sample.main { visited := [3] }).1 = true ∧
      ∀ number ∈ (search Sample.graph {} Sample.main { visited := [3] }).2.visited,
        number ∈ [3] ∨ number ∈ Sample.graph.openFrom [3] Sample.main.index := by
  have regarded : ∀ caller ∈ Sample.graph.callers, ({} : Policy).ignores caller = false := by
    decide
  have down : Sample.graph.Calls Sample.main Sample.load := by decide
  have there : Sample.graph.Calls Sample.load Sample.parse := by decide
  have back : Sample.graph.Calls Sample.parse Sample.load := by decide
  have start : Sample.main.index ∈ Sample.graph.openFrom [3] Sample.main.index :=
    self_mem_openFrom (by decide)
  have load := openFrom_tail start down.links (by decide)
  have parse := openFrom_tail load there.links (by decide)
  have cyclic : Sample.graph.CyclicWithin (Sample.graph.openFrom [3] Sample.main.index) :=
    ⟨Sample.load.index, .head ⟨load, parse, there.links⟩ (.single ⟨parse, load, back.links⟩)⟩
  obtain ⟨_, visits, _, decides⟩ := search_covers_unvisited_paths Sample.graph {} Sample.main
    (rfl : ({ visited := [3] } : State).trail = {})
  have found := (decides Sample.table Sample.table_reachable Sample.graph_over regarded).mpr cyclic
  exact ⟨Sample.table_reachable, Sample.graph_over, regarded, cyclic, found, (visits found).2.1⟩

end CallGraph

end CyclicCalls
