import ModuleLoading.Distinct
import ModuleLoading.Identity
import ModuleLoading.KeyOrder

/-!
A table of embedded modules, looked up by exact key. Modules stand in ascending
order of their keys; entries, the keys of the modules that a packed program
starts with, stand in the order they were given, each once. An embedded module
has no search root: it is not on any disk.
-/
namespace ModuleLoading

structure EmbeddedModule where
  key : String
  dirname : String
  space : Namespace
  code : Bytes
  deriving Repr, DecidableEq

namespace EmbeddedModule

def ofIdentity (identity : Identity) (code : Bytes) : EmbeddedModule :=
  ⟨identity.key, identity.dirname, identity.space, code⟩

def identity (m : EmbeddedModule) : Identity :=
  ⟨m.key, m.dirname, m.space, none⟩

end EmbeddedModule

structure Table where
  entries : List String
  modules : List EmbeddedModule
  entries_nodup : entries.Nodup
  modules_ascending : Ascending EmbeddedModule.key modules
  deriving DecidableEq

namespace Table

def empty : Table := ⟨[], [], List.nodup_nil, List.Pairwise.nil⟩

/-- Adds a module, in place of any other of its key. -/
def insert (table : Table) (m : EmbeddedModule) : Table :=
  ⟨table.entries, insertByKey EmbeddedModule.key m table.modules, table.entries_nodup,
    ascending_insertByKey m table.modules_ascending⟩

theorem nodup_concat {list : List String} {key : String} (h : list.Nodup) (hkey : key ∉ list) :
    (list ++ [key]).Nodup := by
  refine List.nodup_append.2 ⟨h, by simp, ?_⟩
  intro a ha b hb hab
  rw [List.mem_singleton.1 hb] at hab
  exact hkey (hab ▸ ha)

def addEntry (table : Table) (key : String) : Table :=
  if h : key ∈ table.entries then table
  else ⟨table.entries ++ [key], table.modules, nodup_concat table.entries_nodup h,
    table.modules_ascending⟩

def get? (table : Table) (key : String) : Option EmbeddedModule :=
  findByKey EmbeddedModule.key key table.modules

def contains (table : Table) (key : String) : Bool := (table.get? key).isSome

def keys (table : Table) : List String := table.modules.map EmbeddedModule.key

theorem key_of_get? {table : Table} {key : String} {m : EmbeddedModule}
    (h : table.get? key = some m) : m.key = key := by
  simpa using List.find?_some h

theorem modules_foldl_addEntry (table : Table) (keys : List String) :
    (keys.foldl addEntry table).modules = table.modules := by
  induction keys generalizing table with
  | nil => rfl
  | cons key rest ih =>
    rw [List.foldl_cons, ih, addEntry]
    split <;> rfl

theorem entries_foldl_addEntry (table : Table) (keys : List String) :
    (keys.foldl addEntry table).entries =
      table.entries ++ (distinct keys).filter (· ∉ table.entries) := by
  rw [← foldl_concat_new]
  induction keys generalizing table with
  | nil => rfl
  | cons key rest ih =>
    have hstep : (table.addEntry key).entries =
        if key ∈ table.entries then table.entries else table.entries ++ [key] := by
      rw [addEntry]
      split <;> rfl
    rw [List.foldl_cons, ih, hstep, List.foldl_cons]

theorem modules_foldl_insert (table : Table) (modules : List EmbeddedModule) :
    (modules.foldl insert table).modules =
      modules.foldl (fun sorted m => insertByKey EmbeddedModule.key m sorted) table.modules := by
  induction modules generalizing table with
  | nil => rfl
  | cons m rest ih => exact ih (table.insert m)

theorem entries_foldl_insert (table : Table) (modules : List EmbeddedModule) :
    (modules.foldl insert table).entries = table.entries := by
  induction modules generalizing table with
  | nil => rfl
  | cons m rest ih => exact ih (table.insert m)

theorem eq_of_parts {table other : Table} (hentries : table.entries = other.entries)
    (hmodules : table.modules = other.modules) : table = other := by
  cases table
  cases other
  simp_all

/-- A table is what its entries and modules, added in order, make of an empty one. -/
theorem foldl_insert_foldl_addEntry (table : Table) :
    table.modules.foldl insert (table.entries.foldl addEntry empty) = table := by
  refine eq_of_parts ?_ ?_
  · rw [entries_foldl_insert, entries_foldl_addEntry, distinct_of_nodup _ table.entries_nodup]
    simp [empty]
  · rw [modules_foldl_insert, modules_foldl_addEntry]
    exact foldl_insertByKey_ascending EmbeddedModule.key table.modules [] table.modules_ascending

end Table

end ModuleLoading
