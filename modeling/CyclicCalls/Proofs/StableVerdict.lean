import CyclicCalls.Proofs.CleanVerdict
import CyclicCalls.Proofs.InducedGraph
import Mathlib.Data.List.Perm.Basic
/-!
# What the verdict does not depend on

Which chains are reported depends on the order of the records and of the calls in them. A
stricter policy can even bring up a chain that was not reported before: without the cycle at
which a search stopped, the search goes on. Whether any chain is reported depends on neither.
A graph made and searched with one policy is clean exactly if it has no cycle
(`cycles_ofRecords_eq_nil_iff`), and cycles are a matter of which calls there are.

So both statements come down to comparing calls (`Acyclic.of_calls`). Rearranged records make
the same calls (`calls_ofRecords_of_rearranged`), and a stricter policy leaves calls out
and adds none (`calls_ofRecords_of_stricter`).
-/

set_option autoImplicit false

namespace CyclicCalls

/-! ## Rearranged records -/

namespace CallRecord

/-- Records of one caller with the same targets, perhaps in another order. -/
structure Reordered (record other : CallRecord) : Prop where
  caller : record.caller = other.caller
  targets : record.targets.Perm other.targets

/-- The same records in another order, each perhaps with its targets in another order. -/
def Rearranged (records others : List CallRecord) : Prop :=
  ∃ middle, records.Perm middle ∧ List.Forall₂ Reordered middle others

theorem Reordered.symm {record other : CallRecord} (reordered : Reordered record other) :
    Reordered other record :=
  ⟨reordered.caller.symm, reordered.targets.symm⟩

namespace Rearranged

variable {records others : List CallRecord}

theorem symm (rearranged : Rearranged records others) : Rearranged others records := by
  obtain ⟨middle, perm, reordered⟩ := rearranged
  have back : List.Forall₂ Reordered others middle := reordered.flip.imp fun _ _ => Reordered.symm
  -- Reordering the records first and then listing them in the old order does the same.
  have swapped : Relation.Comp (List.Forall₂ Reordered) List.Perm others records :=
    ⟨middle, back, perm.symm⟩
  rw [List.forall₂_comp_perm_eq_perm_comp_forall₂] at swapped
  exact swapped

/-- Each of the rearranged records is one of the records, reordered. -/
theorem exists_of_mem (rearranged : Rearranged records others) {other : CallRecord}
    (member : other ∈ others) : ∃ record ∈ records, Reordered record other := by
  obtain ⟨middle, perm, reordered⟩ := rearranged
  obtain ⟨position, inside, rfl⟩ := List.getElem_of_mem member
  have short : position < middle.length := reordered.length_eq ▸ inside
  exact ⟨middle[position], perm.mem_iff.mpr (List.getElem_mem short), reordered.get short inside⟩

/-- Rearranging brings in no symbols. -/
theorem allOver (rearranged : Rearranged records others) {table : SymbolTable}
    (fromTable : AllOver records table) : AllOver others table := by
  intro other member symbol mentioned
  obtain ⟨record, listed, reordered⟩ := rearranged.exists_of_mem member
  refine fromTable record listed symbol ?_
  simpa [symbols, reordered.caller, reordered.targets.mem_iff] using mentioned

end Rearranged

end CallRecord

/-! ## Stricter policies -/

/-- A policy that lets no more through than another: its scope begins with the scope of the
other, and it lists the names that the other lists. -/
structure Policy.Stricter (stricter policy : Policy) : Prop where
  scope : Text.startsWith policy.scope stricter.scope = true
  ignored : policy.ignored ⊆ stricter.ignored

theorem Policy.Stricter.regards {stricter policy : Policy} (strict : stricter.Stricter policy)
    {method : Symbol} (regarded : stricter.ignores method = false) :
    policy.ignores method = false := by
  obtain ⟨inside, unlisted⟩ := Policy.ignores_eq_false.mp regarded
  refine Policy.ignores_eq_false.mpr ⟨?_, fun listed => unlisted (strict.ignored listed)⟩
  have outer := strict.scope
  simp only [Text.startsWith, List.isPrefixOf_iff_prefix] at outer inside ⊢
  exact outer.trans inside

namespace CallGraph

/-! ## Comparing calls -/

/-- A graph that has only calls of an acyclic graph is acyclic. -/
theorem Acyclic.of_calls {graph other : CallGraph} (acyclic : graph.Acyclic)
    (calls : ∀ caller callee, other.Calls caller callee → graph.Calls caller callee) :
    other.Acyclic := by
  intro first rest cycle
  exact acyclic first rest ⟨cycle.distinct, cycle.calls.imp calls⟩

variable {records others : List CallRecord} {policy stricter : Policy}

theorem calls_ofRecords_of_rearranged (rearranged : CallRecord.Rearranged records others)
    {caller callee : Symbol} (calls : (ofRecords others policy).Calls caller callee) :
    (ofRecords records policy).Calls caller callee := by
  obtain ⟨other, member, same, regarded, target⟩ := calls_ofRecords_iff.mp calls
  obtain ⟨record, listed, reordered⟩ := rearranged.exists_of_mem member
  apply calls_ofRecords_iff.mpr
  exact ⟨record, listed, reordered.caller ▸ same, reordered.caller ▸ regarded,
    reordered.targets.mem_iff.mpr target⟩

theorem calls_ofRecords_of_stricter (strict : stricter.Stricter policy) {caller callee : Symbol}
    (calls : (ofRecords records stricter).Calls caller callee) :
    (ofRecords records policy).Calls caller callee := by
  obtain ⟨record, member, same, regarded, target⟩ := calls_ofRecords_iff.mp calls
  apply calls_ofRecords_iff.mpr
  exact ⟨record, member, same, strict.regards regarded, target⟩

/-! ## The verdict -/

/-- A graph that is made and searched with one policy is clean exactly if it has no cycle. -/
theorem cycles_ofRecords_eq_nil_iff {table : SymbolTable} (reachable : table.Reachable)
    (fromTable : CallRecord.AllOver records table) (policy : Policy) :
    (ofRecords records policy).cycles policy = [] ↔ (ofRecords records policy).Acyclic :=
  cycles_eq_nil_iff ((ofRecords_over fromTable policy).unambiguous reachable)
    fun _ => not_ignored_of_mem_callers_ofRecords

/-- **The verdict is stable.** For records with symbols of one table, whether a graph made and
searched with a policy has any chain does not change when the records, or the targets inside
them, are put in another order. If it has none, it has none under a stricter policy. -/
theorem verdict_is_stable {table : SymbolTable} (reachable : table.Reachable)
    {records : List CallRecord} (fromTable : CallRecord.AllOver records table) (policy : Policy) :
    (∀ others, CallRecord.Rearranged records others →
      ((ofRecords others policy).cycles policy = [] ↔
        (ofRecords records policy).cycles policy = [])) ∧
    ∀ stricter : Policy, stricter.Stricter policy →
      (ofRecords records policy).cycles policy = [] →
        (ofRecords records stricter).cycles stricter = [] := by
  constructor
  · intro others rearranged
    rw [cycles_ofRecords_eq_nil_iff reachable fromTable,
      cycles_ofRecords_eq_nil_iff reachable (rearranged.allOver fromTable)]
    constructor
    · intro acyclic
      exact acyclic.of_calls fun _ _ => calls_ofRecords_of_rearranged rearranged.symm
    · intro acyclic
      exact acyclic.of_calls fun _ _ => calls_ofRecords_of_rearranged rearranged
  · intro stricter strict
    rw [cycles_ofRecords_eq_nil_iff reachable fromTable,
      cycles_ofRecords_eq_nil_iff reachable fromTable]
    intro acyclic
    exact acyclic.of_calls fun _ _ => calls_ofRecords_of_stricter strict

end CallGraph

namespace Sample

/-- The records of the small graph from the last to the first, with their targets turned
round. -/
def turned : List CallRecord :=
  [⟨retry, [some retry]⟩, ⟨parse, [some load, some main]⟩,
    ⟨load, [some retry, none, some parse]⟩, ⟨main, [some load]⟩]

theorem records_rearranged : CallRecord.Rearranged records turned :=
  ⟨records.reverse, (List.reverse_perm records).symm,
    .cons ⟨rfl, .refl _⟩ (.cons ⟨rfl, .swap _ _ _⟩
      (.cons ⟨rfl, (List.reverse_perm _).symm⟩ (.cons ⟨rfl, .refl _⟩ .nil)))⟩

end Sample

/-- Turned round, the records have other chains but still have some. Without `load` and
`retry` they have none, and still none without `main`. -/
theorem CallGraph.verdict_is_stable_sample :
    CallRecord.AllOver Sample.records Sample.table ∧
      CallRecord.Rearranged Sample.records Sample.turned ∧
      (ofRecords Sample.turned {}).cycles {} ≠ (ofRecords Sample.records {}).cycles {} ∧
      (ofRecords Sample.turned {}).cycles {} ≠ [] ∧
      (ofRecords Sample.records ⟨"app", ["app.main", "app.retry", "app.load"]⟩).cycles
        ⟨"app", ["app.main", "app.retry", "app.load"]⟩ = [] := by
  have stable := verdict_is_stable Sample.table_reachable Sample.records_over
  have strict : Policy.Stricter ⟨"app", ["app.main", "app.retry", "app.load"]⟩
      ⟨"a", ["app.load", "app.retry"]⟩ :=
    ⟨by decide +kernel, by decide +kernel⟩
  refine ⟨Sample.records_over, Sample.records_rearranged, by decide +kernel, ?_, ?_⟩
  · rw [ne_eq, (stable {}).1 Sample.turned Sample.records_rearranged]
    decide +kernel
  · exact (stable ⟨"a", ["app.load", "app.retry"]⟩).2 _ strict (by decide +kernel)

end CyclicCalls
