import CyclicCalls.Symbol
import Mathlib.Data.List.Induction
import Mathlib.Data.List.Nodup
import Mathlib.Logic.Function.Basic
/-!
# Interned symbols

The symbols that a table has handed out are told apart by their numbers alone, so a
table must never give two keys one number, nor one key two numbers. It does not: after
any sequence of interned keys the table consists of the distinct keys in the order of
first use, each numbered by its position, and the handle that a call returned is the
position of its key in that list (`internAll_numbered`). What is interned afterwards
stands behind it and moves nothing.

`SymbolTable` looks a key up among its symbols. A table may also keep a map from keys to
symbols beside them, ask only the map whether a key is known, and enter a new symbol in
both places; `KeyedArena` is such a table. Its two parts stay in step, and it hands out
the same symbols (`KeyedArena.internAll_ofTable`).

Together this says that interning is a bijection between the keys used so far and the
first numbers, and that it never changes (`interning_numbers_keys_once`).
-/

set_option autoImplicit false

namespace CyclicCalls

/-! ## Distinct keys in the order of first use -/

section FirstUses

variable {α : Type} [BEq α] [LawfulBEq α] {used : List α} {key : α}

/-- A key that was used before adds nothing at the end. -/
theorem eraseDups_concat_of_mem (known : key ∈ used) :
    (used ++ [key]).eraseDups = used.eraseDups := by
  have nothing : [key].removeAll used = [] := by
    simp [List.removeAll, known]
  rw [List.eraseDups_append, nothing, List.eraseDups_nil, List.append_nil]

/-- A new key is put at the end. -/
theorem eraseDups_concat_of_notMem (unknown : key ∉ used) :
    (used ++ [key]).eraseDups = used.eraseDups ++ [key] := by
  have kept : [key].removeAll used = [key] := by
    simp [List.removeAll, unknown]
  rw [List.eraseDups_append, kept]
  simp [List.eraseDups_cons]

theorem nodup_eraseDups (used : List α) : used.eraseDups.Nodup := by
  induction used using List.reverseRecOn with
  | nil => simp
  | append_singleton used key ih =>
      by_cases known : key ∈ used
      · rw [eraseDups_concat_of_mem known]
        exact ih
      · have absent : key ∉ used.eraseDups := by
          simpa using known
        rw [eraseDups_concat_of_notMem known, ← List.concat_eq_append]
        exact ih.concat absent

/-- Later keys do not move a key that was used before. -/
theorem idxOf_eraseDups_append (known : key ∈ used) (later : List α) :
    (used ++ later).eraseDups.idxOf key = used.eraseDups.idxOf key := by
  rw [List.eraseDups_append, List.idxOf_append, if_pos (List.mem_eraseDups.mpr known)]

end FirstUses

namespace SymbolTable

/-! ## The table of a list of keys -/

/-- The keys in order, each with its position as number. -/
def numbered (keys : List MethodKey) : SymbolTable :=
  ⟨keys.mapIdx Symbol.mk⟩

theorem numbered_concat (keys : List MethodKey) (key : MethodKey) :
    numbered (keys ++ [key]) = ⟨(numbered keys).symbols ++ [⟨keys.length, key⟩]⟩ := by
  simp [numbered]

theorem at?_numbered (keys : List MethodKey) (position : Nat) :
    (numbered keys).at? position = keys[position]?.map (Symbol.mk position) := by
  simp [at?, numbered]

/-- Looking a key up in a table with one more symbol. -/
theorem lookup?_concat (table : SymbolTable) (symbol : Symbol) (key : MethodKey) :
    lookup? ⟨table.symbols ++ [symbol]⟩ key =
      (table.lookup? key).or (if symbol.key = key then some symbol else none) := by
  unfold lookup?
  rw [List.find?_append]
  by_cases same : symbol.key = key
  · simp [same]
  · simp [same]

/-- A key is found at its first position, or not at all. -/
theorem lookup?_numbered (keys : List MethodKey) (key : MethodKey) :
    (numbered keys).lookup? key =
      if key ∈ keys then some ⟨keys.idxOf key, key⟩ else none := by
  induction keys using List.reverseRecOn with
  | nil => rfl
  | append_singleton keys last ih =>
      rw [numbered_concat, lookup?_concat, ih]
      by_cases known : key ∈ keys
      · simp [known, List.idxOf_append]
      · by_cases same : last = key
        · subst same
          simp [known, List.idxOf_append]
        · simp [known, same, Ne.symm same]

/-- A table without repeated keys has each of its symbols, and no other, under the key of
that symbol. -/
theorem lookup?_numbered_eq_some_iff {keys : List MethodKey} (distinct : keys.Nodup)
    {key : MethodKey} {symbol : Symbol} :
    (numbered keys).lookup? key = some symbol ↔
      symbol ∈ (numbered keys).symbols ∧ symbol.key = key := by
  rw [lookup?_numbered]
  constructor
  · intro found
    by_cases known : key ∈ keys
    · rw [if_pos known, Option.some.injEq] at found
      subst found
      refine ⟨List.mem_mapIdx.mpr ⟨keys.idxOf key, List.idxOf_lt_length_of_mem known, ?_⟩, rfl⟩
      simp
    · simp [known] at found
  · rintro ⟨member, rfl⟩
    obtain ⟨position, inside, rfl⟩ := List.mem_mapIdx.mp member
    simp [distinct.idxOf_getElem position inside]

/-! ## Sequences of interned keys -/

/-- The symbol of a key after a sequence of interned keys: its position among the distinct
ones. -/
def handle (used : List MethodKey) (key : MethodKey) : Symbol :=
  ⟨used.eraseDups.idxOf key, key⟩

theorem handle_append {used : List MethodKey} {key : MethodKey} (known : key ∈ used)
    (later : List MethodKey) : handle (used ++ later) key = handle used key := by
  simp [handle, idxOf_eraseDups_append known]

/-- Interning one more key. -/
theorem intern_numbered (used : List MethodKey) (key : MethodKey) :
    (numbered used.eraseDups).intern key =
      (handle (used ++ [key]) key, numbered (used ++ [key]).eraseDups) := by
  rw [intern, lookup?_numbered]
  by_cases known : key ∈ used
  · simp [known, handle, eraseDups_concat_of_mem known]
  · simp [known, handle, eraseDups_concat_of_notMem known, List.idxOf_append, numbered]

/-- **After any sequence of interned keys** the table holds the distinct keys in the order
of first use, and every call has returned the position of its key. -/
theorem internAll_numbered (used keys : List MethodKey) :
    (numbered used.eraseDups).internAll keys =
      (keys.map (handle (used ++ keys)), numbered (used ++ keys).eraseDups) := by
  induction keys generalizing used with
  | nil => simp [internAll]
  | cons key keys ih =>
      have first : handle (used ++ key :: keys) key = handle (used ++ [key]) key := by
        rw [List.append_cons]
        exact handle_append (List.mem_append_right _ (List.mem_singleton_self key)) keys
      rw [internAll, intern_numbered]
      simp only [ih, List.map_cons, first]
      simp

/-- The symbols returned by a sequence of calls on a new table. -/
def handles (keys : List MethodKey) : List Symbol :=
  (({} : SymbolTable).internAll keys).1

/-- The table after a sequence of calls on a new one. -/
def ofKeys (keys : List MethodKey) : SymbolTable :=
  (({} : SymbolTable).internAll keys).2

theorem handles_eq (keys : List MethodKey) : handles keys = keys.map (handle keys) :=
  congrArg Prod.fst (internAll_numbered [] keys)

theorem ofKeys_eq (keys : List MethodKey) : ofKeys keys = numbered keys.eraseDups :=
  congrArg Prod.snd (internAll_numbered [] keys)

/-- Handles have equal numbers exactly if their keys are equal. -/
theorem index_handle_eq_iff {keys : List MethodKey} {first second : MethodKey}
    (used : first ∈ keys) :
    (handle keys first).index = (handle keys second).index ↔ first = second :=
  List.idxOf_inj (List.mem_eraseDups.mpr used)

/-- The handles of two calls have equal numbers exactly if the calls had equal keys. -/
theorem index_handles_eq_iff (keys : List MethodKey) (first second : Nat) :
    (handles keys)[first]?.map Symbol.index = (handles keys)[second]?.map Symbol.index ↔
      keys[first]? = keys[second]? := by
  simp only [handles_eq, List.getElem?_map, Option.map_map]
  cases left : keys[first]? with
  | none => cases right : keys[second]? <;> simp
  | some key =>
      cases right : keys[second]? with
      | none => simp
      | some other => simpa using index_handle_eq_iff (List.mem_of_getElem? left)

/-- Looking a key up gives what interning it would return, or nothing. -/
theorem lookup?_ofKeys (keys : List MethodKey) (key : MethodKey) :
    (ofKeys keys).lookup? key =
      if key ∈ keys then some ((ofKeys keys).intern key).1 else none := by
  rw [ofKeys_eq, lookup?_numbered, intern_numbered]
  by_cases known : key ∈ keys
  · simp [known, handle, eraseDups_concat_of_mem known]
  · simp [known]

/-- A handle keeps its place: it is found at its number and under its key after any later
calls, and is returned when its key is interned again. -/
theorem handle_stays {keys : List MethodKey} {symbol : Symbol} (returned : symbol ∈ handles keys)
    (later : List MethodKey) :
    (ofKeys (keys ++ later)).at? symbol.index = some symbol ∧
      (ofKeys (keys ++ later)).lookup? symbol.key = some symbol ∧
      (ofKeys (keys ++ later)).intern symbol.key = (symbol, ofKeys (keys ++ later)) := by
  rw [handles_eq] at returned
  obtain ⟨key, used, rfl⟩ := List.mem_map.mp returned
  have still : key ∈ keys ++ later := List.mem_append_left later used
  rw [← handle_append used later, ofKeys_eq]
  refine ⟨?_, ?_, ?_⟩
  · have listed : key ∈ (keys ++ later).eraseDups := List.mem_eraseDups.mpr still
    rw [at?_numbered]
    simp only [handle, List.getElem?_idxOf listed, Option.map_some]
  · rw [lookup?_numbered]
    exact if_pos (List.mem_eraseDups.mpr still)
  · have again := intern_numbered (keys ++ later) key
    rw [eraseDups_concat_of_mem still, handle_append still] at again
    exact again

end SymbolTable

/-! ## A table in two parts -/

/-- The symbols in the order of first use, and a map from keys to symbols. -/
structure KeyedArena where
  arena : List Symbol := []
  byKey : MethodKey → Option Symbol := fun _ => none

namespace KeyedArena

/-- The symbol that the map has for a key. If it has none, a symbol with the next number is
entered in both parts. -/
def intern (store : KeyedArena) (key : MethodKey) : Symbol × KeyedArena :=
  match store.byKey key with
  | some symbol => (symbol, store)
  | none =>
    let symbol : Symbol := ⟨store.arena.length, key⟩
    (symbol, ⟨store.arena ++ [symbol], Function.update store.byKey key (some symbol)⟩)

/-- The symbols of several keys, handed out from left to right. -/
def internAll (store : KeyedArena) : List MethodKey → List Symbol × KeyedArena
  | [] => ([], store)
  | key :: keys =>
    let (symbol, next) := store.intern key
    let (symbols, last) := next.internAll keys
    (symbol :: symbols, last)

/-- The two parts of a table. -/
def ofTable (table : SymbolTable) : KeyedArena :=
  ⟨table.symbols, table.lookup?⟩

/-- Interning one key keeps the parts in step. -/
theorem intern_ofTable (table : SymbolTable) (key : MethodKey) :
    (ofTable table).intern key = ((table.intern key).1, ofTable (table.intern key).2) := by
  unfold intern SymbolTable.intern
  cases found : table.lookup? key with
  | some symbol => simp [ofTable, found]
  | none =>
      have entered : Function.update table.lookup? key (some ⟨table.symbols.length, key⟩) =
          SymbolTable.lookup? ⟨table.symbols ++ [⟨table.symbols.length, key⟩]⟩ := by
        funext other
        rw [SymbolTable.lookup?_concat]
        by_cases same : other = key
        · subst same
          simp [found]
        · simp [same, Ne.symm same]
      simp [ofTable, found, entered]

/-- **The two parts of a table stay in step**, and it hands out the same symbols as a table
that looks keys up among its symbols. -/
theorem internAll_ofTable (table : SymbolTable) (keys : List MethodKey) :
    (ofTable table).internAll keys =
      ((table.internAll keys).1, ofTable (table.internAll keys).2) := by
  induction keys generalizing table with
  | nil => rfl
  | cons key keys ih =>
      rw [internAll, intern_ofTable, SymbolTable.internAll]
      simp only [ih]

end KeyedArena

namespace SymbolTable

/-- **Interning numbers every key once.** After any sequence of interned keys:

* a table kept as an arena and a map has handed out the same symbols, its arena is the list
  of symbols and its map is the look-up;
* the symbol at a position is the distinct key at that position, in the order of first use,
  with the position as its number;
* the map has exactly the symbols of the arena, each under its own key;
* every call returned a symbol of its key, and the symbols of two calls have equal numbers
  exactly if the keys of the calls are equal;
* later calls return symbols besides these, and leave every symbol returned before at its
  number and under its key;
* looking a key up gives the symbol that interning it would return if the key was interned
  before, and nothing otherwise. -/
theorem interning_numbers_keys_once (keys : List MethodKey) :
    KeyedArena.internAll {} keys =
        (handles keys, ⟨(ofKeys keys).symbols, (ofKeys keys).lookup?⟩) ∧
      (∀ position : Nat,
        (ofKeys keys).at? position = keys.eraseDups[position]?.map (Symbol.mk position)) ∧
      (∀ key symbol, (ofKeys keys).lookup? key = some symbol ↔
        symbol ∈ (ofKeys keys).symbols ∧ symbol.key = key) ∧
      (handles keys).map Symbol.key = keys ∧
      (∀ first second : Nat,
        (handles keys)[first]?.map Symbol.index = (handles keys)[second]?.map Symbol.index ↔
          keys[first]? = keys[second]?) ∧
      (∀ later, handles keys <+: handles (keys ++ later) ∧
        (ofKeys keys).symbols <+: (ofKeys (keys ++ later)).symbols ∧
        ∀ symbol ∈ handles keys,
          (ofKeys (keys ++ later)).at? symbol.index = some symbol ∧
            (ofKeys (keys ++ later)).lookup? symbol.key = some symbol ∧
            (ofKeys (keys ++ later)).intern symbol.key = (symbol, ofKeys (keys ++ later))) ∧
      ∀ key, (ofKeys keys).lookup? key =
        if key ∈ keys then some ((ofKeys keys).intern key).1 else none := by
  refine ⟨KeyedArena.internAll_ofTable {} keys, ?_, ?_, ?_, index_handles_eq_iff keys, ?_,
    lookup?_ofKeys keys⟩
  · intro position
    rw [ofKeys_eq, at?_numbered]
  · intro key symbol
    rw [ofKeys_eq]
    exact lookup?_numbered_eq_some_iff (nodup_eraseDups keys)
  · simp [handles_eq, Function.comp_def, handle]
  · intro later
    refine ⟨?_, ?_, fun symbol returned => handle_stays returned later⟩
    · have kept : keys.map (handle (keys ++ later)) = keys.map (handle keys) :=
        List.map_congr_left fun key used => handle_append used later
      rw [handles_eq, handles_eq, List.map_append, kept]
      exact List.prefix_append _ _
    · rw [ofKeys_eq, ofKeys_eq, List.eraseDups_append]
      simp [numbered, List.mapIdx_append]

/-- Keys that give one qualified name are still told apart, and a third key does not move
the symbol of the second. -/
theorem interning_numbers_keys_once_sameName :
    ⟨1, ⟨"x", "a", "b.c"⟩⟩ ∈
        handles [⟨"x", "a.b", "c"⟩, ⟨"x", "a", "b.c"⟩, ⟨"x", "a.b", "c"⟩] ∧
      (ofKeys ([⟨"x", "a.b", "c"⟩, ⟨"x", "a", "b.c"⟩, ⟨"x", "a.b", "c"⟩] ++
        [⟨"y", "a", "b.c"⟩])).at? (1 : Nat) = some ⟨1, ⟨"x", "a", "b.c"⟩⟩ := by
  have returned : ⟨1, ⟨"x", "a", "b.c"⟩⟩ ∈
      handles [⟨"x", "a.b", "c"⟩, ⟨"x", "a", "b.c"⟩, ⟨"x", "a.b", "c"⟩] := by decide
  obtain ⟨_, _, _, _, _, stays, _⟩ :=
    interning_numbers_keys_once [⟨"x", "a.b", "c"⟩, ⟨"x", "a", "b.c"⟩, ⟨"x", "a.b", "c"⟩]
  exact ⟨returned, ((stays _).2.2 _ returned).1⟩

end SymbolTable

end CyclicCalls
