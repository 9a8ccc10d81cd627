import Std.Data.HashMap
import WindowReduction.Event
import WindowReduction.Program

/-!
# Program caches

A cache keeps the program of every descriptor that was asked for since it was last cleared. Each
program that a cache builds gets a serial number of its own, never used again, so that two answers
can be told to be the very same object.

Main statements: `Cache.get?_request`, `Cache.size_request`.
-/

namespace WindowReduction

/-- A program in a cache, with the number of programs that the cache had built before it. -/
structure Entry where
  serial : Nat
  program : Program

/-- The programs built since the last clearing, and the number of programs built ever. -/
structure Cache where
  entries : Std.HashMap Descriptor Entry
  built : Nat

/-- The answer to a request: the entry, the cache afterwards and what was reported. -/
structure Served where
  entry : Entry
  cache : Cache
  events : List Event

namespace Cache

/-- The cache in which nothing was built. -/
def empty : Cache :=
  ⟨∅, 0⟩

/-- The entry of a descriptor. -/
def get? (c : Cache) (d : Descriptor) : Option Entry :=
  c.entries[d]?

/-- The number of programs in a cache. -/
def size (c : Cache) : Nat :=
  c.entries.size

/-- The entry of a descriptor, whose program is built if the cache has none. -/
def request (c : Cache) (d : Descriptor) : Served :=
  match c.get? d with
  | some entry => ⟨entry, c, []⟩
  | none =>
    let building := Building.of d
    let entry : Entry := ⟨c.built, building.program⟩
    ⟨entry, ⟨c.entries.insert d entry, c.built + 1⟩, .cacheMiss d :: building.events⟩

/-- Forgets all programs, but not how many there were. -/
def clear (c : Cache) : Cache :=
  { c with entries := ∅ }

/-- After a request its descriptor has the entry that was given, and no other descriptor's entry has
changed. -/
theorem get?_request (c : Cache) (d d' : Descriptor) :
    (c.request d).cache.get? d' = if d' = d then some (c.request d).entry else c.get? d' := by
  unfold request
  split
  · rename_i entry h
    by_cases hd : d' = d
    · subst hd; simpa using h
    · simp [hd]
  · by_cases hd : d' = d
    · subst hd; simp [get?]
    · simp [get?, hd, Std.HashMap.getElem?_insert, Ne.symm hd]

/-- A request adds a program exactly when there was none. -/
theorem size_request (c : Cache) (d : Descriptor) :
    (c.request d).cache.size = if (c.get? d).isSome then c.size else c.size + 1 := by
  unfold request
  split
  · rename_i entry h
    simp [h]
  · rename_i h
    have hd : d ∉ c.entries := by simpa [get?] using h
    simp [h, size, Std.HashMap.size_insert, hd]

/-- A cleared cache has no entries. -/
@[simp] theorem get?_clear (c : Cache) (d : Descriptor) : c.clear.get? d = none := by
  simp [get?, clear]

end Cache

end WindowReduction
