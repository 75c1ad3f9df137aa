import SqlComposer.Error
import SqlComposer.Rows.Row

/-!
# The result cache

Rows are kept under a key until they expire. When there are more than the capacity allows, those
used least recently go first. The entries are a map, and a queue of the keys says which were used
when.
-/

namespace SqlComposer

/-- A moment, in nanoseconds since the clock started. -/
abbrev Moment := Nat

/-- The first moment that the clock cannot name: it counts seconds in 63 bits. -/
def clockEnd : Moment := Nat.pow 2 63 * Duration.perSecond

/-- The key of a statement on a connection. -/
def cacheKey (connection sql : String) : String :=
  "Database::query(\"" ++ connection ++ "\", \"" ++ sql ++ "\")"

/-- Rows with the moment from which they no longer count. -/
structure Stored where
  rows : List Row
  expires : Moment

structure MemoryCache where
  capacity : Nat
  entries : List (Entry Stored)
  /-- The keys, least recently used first. -/
  order : List String

namespace MemoryCache

def empty (capacity : Nat) : MemoryCache := ⟨capacity, [], []⟩

def size (c : MemoryCache) : Nat := c.entries.length

def isEmpty (c : MemoryCache) : Bool := c.entries.isEmpty

def clear (c : MemoryCache) : MemoryCache := empty c.capacity

def promote (c : MemoryCache) (key : String) : MemoryCache :=
  { c with order := c.order.filter (· ≠ key) ++ [key] }

def remove (c : MemoryCache) (key : String) : MemoryCache :=
  { c with entries := Keyed.erase key c.entries, order := c.order.filter (· ≠ key) }

/-- The rows under a key. Expired ones are dropped, others become the most recently used. -/
def get (c : MemoryCache) (now : Moment) (key : String) : Option (List Row) × MemoryCache :=
  match Keyed.get? key c.entries with
  | none => (none, c)
  | some stored =>
    if stored.expires ≤ now then (none, c.remove key) else (some stored.rows, c.promote key)

def dropExpired (c : MemoryCache) (now : Moment) : MemoryCache :=
  let entries := c.entries.filter (now < ·.value.expires)
  { c with entries, order := c.order.filter fun key => entries.any (·.key = key) }

/-- Drops the least recently used entries until `capacity` remain. -/
def evict (capacity : Nat) : (order : List String) → List (Entry Stored) →
    List String × List (Entry Stored)
  | [], entries => ([], entries)
  | key :: order, entries =>
    if capacity < entries.length then evict capacity order (Keyed.erase key entries)
    else (key :: order, entries)

def shrink (c : MemoryCache) : MemoryCache :=
  let (order, entries) := evict c.capacity c.order c.entries
  { c with entries, order }

/-- Stores rows. When the clock cannot name the end of their lifetime, nothing is stored. -/
def set (c : MemoryCache) (now : Moment) (key : String) (rows : List Row) (lifetime : Duration) :
    Outcome MemoryCache :=
  let expires := now + lifetime.nanos
  if expires < clockEnd then
    let entries := Keyed.put key ⟨rows, expires⟩ c.entries
    .ok ((({ c with entries }.promote key).dropExpired now).shrink)
  else .error .clockOverflow

end MemoryCache

end SqlComposer
