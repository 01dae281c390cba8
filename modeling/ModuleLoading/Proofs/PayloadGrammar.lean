import Mathlib.Data.List.Nodup
import Mathlib.Data.List.Perm.Subperm
import ModuleLoading.Proofs.TableCodec
import ModuleLoading.Proofs.Utf8Order

/-!
The payloads that decode are those of a grammar. The grammar says of bytes what they
stand for and mentions neither the writer nor the reader: fields of four bytes that
count, chunks with their length before them, records, and the sequences of both. It is
unambiguous, and no payload begins another. A payload is how its own table is written if
and only if it repeats no entry and its modules stand in the order of the bytes of their
keys.
-/
namespace ModuleLoading.Table

namespace Grammar

/-- A number in a field of four bytes, the least significant first. -/
structure Count (bytes : Bytes) (n : Nat) : Prop where
  length_eq : bytes.length = 4
  toNat_eq : Bytes.toNat bytes = n

/-- Bytes with their number in a field before them. -/
inductive Chunk : Bytes → Bytes → Prop
  | mk (field content : Bytes) (hcount : Count field content.length) :
    Chunk (field ++ content) content

def Text (bytes : Bytes) (text : String) : Prop := Chunk bytes (Utf8.encode text)

inductive Tag : UInt8 → Namespace → Prop
  | search : Tag 0 .search
  | filesystem : Tag 1 .filesystem

inductive Record : Bytes → EmbeddedModule → Prop
  | mk (key dirname code : Bytes) (tag : UInt8) (m : EmbeddedModule) (hkey : Text key m.key)
      (htag : Tag tag m.space) (hdirname : Text dirname m.dirname) (hcode : Chunk code m.code) :
    Record (key ++ tag :: (dirname ++ code)) m

/-- One item after the other. -/
inductive Items {α : Type} (item : Bytes → α → Prop) : Bytes → List α → Prop
  | nil : Items item [] []
  | cons (bytes rest : Bytes) (a : α) (list : List α) (ha : item bytes a)
      (hrest : Items item rest list) : Items item (bytes ++ rest) (a :: list)

/-- Entries, perhaps repeated, and modules of distinct keys, each counted before. -/
inductive Payload : Bytes → List String → List EmbeddedModule → Prop
  | mk (entryCount entryItems moduleCount records : Bytes) (entries : List String)
      (modules : List EmbeddedModule) (hentryCount : Count entryCount entries.length)
      (hentries : Items Text entryItems entries)
      (hmoduleCount : Count moduleCount modules.length) (hrecords : Items Record records modules)
      (hkeys : (modules.map EmbeddedModule.key).Nodup) :
    Payload (magic ++ entryCount ++ entryItems ++ moduleCount ++ records) entries modules

theorem count_iff (bytes : Bytes) (n : Nat) :
    Count bytes n ↔ Fits n ∧ bytes = Bytes.ofNat lengthWidth n := by
  constructor
  · intro h
    have hlt := Bytes.toNat_lt bytes
    have hback := Bytes.ofNat_toNat bytes
    rw [h.length_eq, h.toNat_eq] at hlt hback
    exact ⟨hlt, hback.symm⟩
  · intro h
    obtain ⟨hfits, rfl⟩ := h
    exact ⟨Bytes.length_ofNat lengthWidth n, Bytes.toNat_ofNat_of_lt lengthWidth n hfits⟩

theorem chunk_iff (bytes content : Bytes) :
    Chunk bytes content ↔ Fits content.length ∧ bytes = chunk content := by
  constructor
  · intro h
    cases h with
    | mk field content hcount =>
      obtain ⟨hfits, rfl⟩ := (count_iff _ _).1 hcount
      exact ⟨hfits, rfl⟩
  · intro h
    obtain ⟨hfits, rfl⟩ := h
    exact .mk _ content ((count_iff _ _).2 ⟨hfits, rfl⟩)

theorem text_iff (bytes : Bytes) (text : String) :
    Text bytes text ↔ FitsText text ∧ bytes = textChunk text := chunk_iff bytes (Utf8.encode text)

theorem tag_iff (tag : UInt8) (space : Namespace) : Tag tag space ↔ tag = space.tag := by
  constructor
  · intro h
    cases h with
    | search => rfl
    | filesystem => rfl
  · intro h
    subst h
    cases space with
    | search => exact .search
    | filesystem => exact .filesystem

theorem record_iff (bytes : Bytes) (m : EmbeddedModule) :
    Record bytes m ↔ FitsRecord m ∧ bytes = record m := by
  constructor
  · intro h
    cases h with
    | mk key dirname code tag m hkey htag hdirname hcode =>
      obtain ⟨hkeyFits, rfl⟩ := (text_iff _ _).1 hkey
      obtain ⟨hdirnameFits, rfl⟩ := (text_iff _ _).1 hdirname
      obtain ⟨hcodeFits, rfl⟩ := (chunk_iff _ _).1 hcode
      rw [(tag_iff _ _).1 htag]
      exact ⟨⟨hkeyFits, hdirnameFits, hcodeFits⟩, rfl⟩
  · intro h
    obtain ⟨hfits, rfl⟩ := h
    exact .mk _ _ _ _ m ((text_iff _ _).2 ⟨hfits.key, rfl⟩) ((tag_iff _ _).2 rfl)
      ((text_iff _ _).2 ⟨hfits.dirname, rfl⟩) ((chunk_iff _ _).2 ⟨hfits.code, rfl⟩)

theorem items_iff {α : Type} {item : Bytes → α → Prop} {fits : α → Prop} {write : α → Bytes}
    (h : ∀ bytes a, item bytes a ↔ fits a ∧ bytes = write a) (bytes : Bytes) (list : List α) :
    Items item bytes list ↔ (∀ a ∈ list, fits a) ∧ bytes = list.flatMap write := by
  constructor
  · intro hitems
    induction hitems with
    | nil => exact ⟨by simp, rfl⟩
    | cons bytes rest a list ha hrest ih =>
      obtain ⟨hfits, rfl⟩ := (h bytes a).1 ha
      obtain ⟨hall, rfl⟩ := ih
      exact ⟨List.forall_mem_cons.2 ⟨hfits, hall⟩, rfl⟩
  · intro hwritten
    obtain ⟨hall, rfl⟩ := hwritten
    induction list with
    | nil => exact .nil
    | cons a list ih =>
      obtain ⟨hfits, hall⟩ := List.forall_mem_cons.1 hall
      exact .cons _ _ a list ((h _ a).2 ⟨hfits, rfl⟩) (ih hall)

theorem payload_iff (bytes : Bytes) (entries : List String) (modules : List EmbeddedModule) :
    Payload bytes entries modules ↔
      Writable entries modules ∧ bytes = payloadOf entries modules := by
  constructor
  · intro h
    cases h with
    | mk entryCount entryItems moduleCount records entries modules hentryCount hentries
        hmoduleCount hrecords hkeys =>
      obtain ⟨hentryFits, rfl⟩ := (count_iff _ _).1 hentryCount
      obtain ⟨hentriesFit, rfl⟩ := (items_iff text_iff _ _).1 hentries
      obtain ⟨hmoduleFits, rfl⟩ := (count_iff _ _).1 hmoduleCount
      obtain ⟨hrecordsFit, rfl⟩ := (items_iff record_iff _ _).1 hrecords
      exact ⟨⟨hentryFits, hentriesFit, hmoduleFits, hrecordsFit, hkeys⟩, rfl⟩
  · intro h
    obtain ⟨hwritable, rfl⟩ := h
    exact .mk _ _ _ _ entries modules
      ((count_iff _ _).2 ⟨hwritable.entryCount_fits, rfl⟩)
      ((items_iff text_iff _ _).2 ⟨hwritable.entries_fit, rfl⟩)
      ((count_iff _ _).2 ⟨hwritable.moduleCount_fits, rfl⟩)
      ((items_iff record_iff _ _).2 ⟨hwritable.modules_fit, rfl⟩) hwritable.keys_nodup

end Grammar

theorem Inverts.unique {α : Type} {take : Bytes → Except TableFault (α × Bytes)}
    {fits : α → Prop} {write : α → Bytes} (h : Inverts take fits write) {a b : α} (ha : fits a)
    (hb : fits b) {rest rest' : Bytes} (heq : write a ++ rest = write b ++ rest') :
    a = b ∧ rest = rest' := by
  have htake := h.take_append a ha rest
  rw [heq, h.take_append b hb rest'] at htake
  cases htake
  exact ⟨rfl, rfl⟩

theorem Inverts.unique_list {α : Type} {take : Bytes → Except TableFault (α × Bytes)}
    {fits : α → Prop} {write : α → Bytes} (h : Inverts take fits write) {list other : List α}
    (hlength : list.length = other.length) (hlist : ∀ a ∈ list, fits a)
    (hother : ∀ a ∈ other, fits a) {rest rest' : Bytes}
    (heq : list.flatMap write ++ rest = other.flatMap write ++ rest') :
    list = other ∧ rest = rest' := by
  induction list generalizing other with
  | nil =>
    rw [List.length_eq_zero_iff.1 hlength.symm] at heq ⊢
    exact ⟨rfl, heq⟩
  | cons a list ih =>
    obtain ⟨b, other, rfl⟩ := List.exists_cons_of_length_eq_add_one hlength.symm
    obtain ⟨ha, hlistRest⟩ := List.forall_mem_cons.1 hlist
    obtain ⟨hb, hotherRest⟩ := List.forall_mem_cons.1 hother
    rw [List.flatMap_cons, List.flatMap_cons, List.append_assoc, List.append_assoc] at heq
    obtain ⟨rfl, hafter⟩ := h.unique ha hb heq
    obtain ⟨rfl, hrest⟩ := ih (Nat.succ.inj hlength) hlistRest hotherRest hafter
    exact ⟨rfl, hrest⟩

theorem payloadOf_unique {entries entries' : List String} {modules modules' : List EmbeddedModule}
    (h : Writable entries modules) (h' : Writable entries' modules')
    (heq : payloadOf entries modules = payloadOf entries' modules') :
    entries = entries' ∧ modules = modules' := by
  simp only [payloadOf, List.append_assoc] at heq
  replace heq := List.append_cancel_left heq
  obtain ⟨hentryCount, heq⟩ := takeLength_inverts.unique h.entryCount_fits h'.entryCount_fits heq
  obtain ⟨hentries, heq⟩ :=
    takeText_inverts.unique_list hentryCount h.entries_fit h'.entries_fit heq
  obtain ⟨hmoduleCount, heq⟩ :=
    takeLength_inverts.unique h.moduleCount_fits h'.moduleCount_fits heq
  have hrecords : modules.flatMap record ++ [] = modules'.flatMap record ++ [] := by rw [heq]
  obtain ⟨hmodules, _⟩ :=
    takeRecord_inverts.unique_list hmoduleCount h.modules_fit h'.modules_fit hrecords
  exact ⟨hentries, hmodules⟩

/-- Nothing can follow an accepted payload. -/
theorem eq_nil_of_decode_append {bytes rest : Bytes} {table table' : Table}
    (h : decode bytes = .ok table) (h' : decode (bytes ++ rest) = .ok table') : rest = [] := by
  obtain ⟨entries, modules, hwritable, rfl, rfl⟩ := (decode_eq_ok_iff bytes table).1 h
  have htake := (takeTable_eq_ok_iff (payloadOf entries modules ++ rest) rest _).2
    ⟨entries, modules, hwritable, rfl, rfl⟩
  rw [decode, htake] at h'
  cases rest with
  | nil => rfl
  | cons b rest => cases h'

theorem ascending_iff (modules : List EmbeddedModule) :
    Ascending EmbeddedModule.key modules ↔
      modules.Pairwise fun a b => Utf8.encode a.key < Utf8.encode b.key := by
  rw [Ascending]
  exact List.Pairwise.iff fun (a b : EmbeddedModule) =>
    (Utf8.encode_lt_encode_iff a.key b.key).symm

theorem distinct_eq_self_iff (entries : List String) :
    distinct entries = entries ↔ entries.Nodup := by
  constructor
  · intro h
    rw [← h]
    exact nodup_distinct entries
  · exact distinct_of_nodup entries

/-- Entries and modules put in the places that a table keeps them in. -/
structure Tabulates (table : Table) (entries : List String) (modules : List EmbeddedModule) :
    Prop where
  entries_eq : table.entries = distinct entries
  modules_eq : table.modules =
    modules.foldl (fun sorted m => insertByKey EmbeddedModule.key m sorted) []

theorem tabulates_foldl (entries : List String) (modules : List EmbeddedModule) :
    Tabulates (modules.foldl insert (entries.foldl addEntry empty)) entries modules := by
  constructor
  · rw [entries_foldl_insert, entries_foldl_addEntry]
    simp [empty]
  · rw [modules_foldl_insert, modules_foldl_addEntry]
    rfl

namespace Tabulates

variable {table : Table} {entries : List String} {modules : List EmbeddedModule}

theorem perm (h : Tabulates table entries modules)
    (hkeys : (modules.map EmbeddedModule.key).Nodup) : table.modules.Perm modules := by
  have hsorted : table.modules.Nodup :=
    List.Nodup.of_map _ (nodup_of_ascending table.modules_ascending)
  have hgiven : modules.Nodup := List.Nodup.of_map _ hkeys
  refine (List.perm_ext_iff_of_nodup hsorted hgiven).2 fun m => ?_
  rw [h.modules_eq]
  exact mem_foldl_insertByKey EmbeddedModule.key m modules hkeys

theorem modules_eq_self_iff (h : Tabulates table entries modules) :
    table.modules = modules ↔ Ascending EmbeddedModule.key modules := by
  constructor
  · intro heq
    rw [← heq]
    exact table.modules_ascending
  · intro hascending
    rw [h.modules_eq]
    exact foldl_insertByKey_ascending EmbeddedModule.key modules [] hascending

/-- A table has no more to write than a payload that it comes from. -/
theorem writable (h : Tabulates table entries modules) (hwritable : Writable entries modules) :
    Writable table.entries table.modules := by
  have hperm := h.perm hwritable.keys_nodup
  have hlength : (distinct entries).length ≤ entries.length :=
    (List.subperm_of_subset (nodup_distinct entries) fun _ hkey => mem_distinct.1 hkey).length_le
  refine ⟨?_, ?_, ?_, ?_, nodup_of_ascending table.modules_ascending⟩
  · rw [h.entries_eq]
    exact Nat.lt_of_le_of_lt hlength hwritable.entryCount_fits
  · rw [h.entries_eq]
    exact fun key hkey => hwritable.entries_fit key (mem_distinct.1 hkey)
  · rw [hperm.length_eq]
    exact hwritable.moduleCount_fits
  · exact fun m hm => hwritable.modules_fit m (hperm.mem_iff.1 hm)

theorem encode_eq_iff (h : Tabulates table entries modules) (hwritable : Writable entries modules) :
    table.encode = .ok (payloadOf entries modules) ↔
      entries.Nodup ∧ Ascending EmbeddedModule.key modules := by
  have hown := h.writable hwritable
  rw [encode_of_fits table ((writable_iff table).1 hown), Except.ok.injEq,
    ← distinct_eq_self_iff, ← h.entries_eq, ← h.modules_eq_self_iff]
  constructor
  · exact payloadOf_unique hown hwritable
  · intro hsame
    rw [← hsame.1, ← hsame.2]
    rfl

end Tabulates

/-- Decoding accepts the payloads of the grammar and no other bytes. The table has the
entries of the payload without later repetitions and just its modules; it is written as
the payload exactly if nothing had to be dropped or moved. -/
theorem decode_accepts_grammar (bytes : Bytes) :
    ((∃ table, decode bytes = .ok table) ↔
      ∃ entries modules, Grammar.Payload bytes entries modules) ∧
    (∀ entries modules, Grammar.Payload bytes entries modules →
      ∃ table, decode bytes = .ok table ∧ table.entries = distinct entries ∧
        table.modules.Perm modules ∧
        (table.encode = .ok bytes ↔ entries.Nodup ∧
          modules.Pairwise fun a b => Utf8.encode a.key < Utf8.encode b.key)) ∧
    (∀ table rest table', decode bytes = .ok table → decode (bytes ++ rest) = .ok table' →
      rest = []) := by
  have haccepts : ∀ entries modules, Grammar.Payload bytes entries modules →
      decode bytes = .ok (modules.foldl insert (entries.foldl addEntry empty)) := by
    intro entries modules h
    obtain ⟨hwritable, hbytes⟩ := (Grammar.payload_iff bytes entries modules).1 h
    exact (decode_eq_ok_iff bytes _).2 ⟨entries, modules, hwritable, hbytes, rfl⟩
  refine ⟨⟨?_, ?_⟩, ?_, fun table rest table' => eq_nil_of_decode_append⟩
  · intro h
    obtain ⟨table, hdecode⟩ := h
    obtain ⟨entries, modules, hwritable, hbytes, _⟩ := (decode_eq_ok_iff bytes table).1 hdecode
    exact ⟨entries, modules, (Grammar.payload_iff _ _ _).2 ⟨hwritable, hbytes⟩⟩
  · intro h
    obtain ⟨entries, modules, hpayload⟩ := h
    exact ⟨_, haccepts entries modules hpayload⟩
  · intro entries modules hpayload
    obtain ⟨hwritable, rfl⟩ := (Grammar.payload_iff _ _ _).1 hpayload
    have htable := tabulates_foldl entries modules
    refine ⟨_, haccepts entries modules hpayload, htable.entries_eq,
      htable.perm hwritable.keys_nodup, ?_⟩
    rw [htable.encode_eq_iff hwritable, ascending_iff]

end ModuleLoading.Table
