import ModuleLoading.Proofs.Utf8Codec
import ModuleLoading.Table.Payload

/-!
A table is read back from its payload as it was. Every reader of the payload
inverts a writer: it succeeds on bytes that begin with something written, gives
back what was written and leaves the bytes after it, whatever they are. The readers
of the parts are put together in the order of the payload, so that a byte string
decodes to a table if and only if it is the payload of entries and modules that
make the table.
-/
namespace ModuleLoading.Table

open Bytes (capacity)

theorem bind_eq_ok_iff {ε α β : Type} (x : Except ε α) (f : α → Except ε β) (b : β) :
    (x >>= f) = .ok b ↔ ∃ a, x = .ok a ∧ f a = .ok b := by
  cases x with
  | error e => simp [bind, Except.bind]
  | ok a => simp [bind, Except.bind]

/-- The reader takes what is written of a value that fits, and nothing more. -/
def Inverts {α : Type} (take : Bytes → Except TableFault (α × Bytes)) (fits : α → Prop)
    (write : α → Bytes) : Prop :=
  ∀ bytes a rest, take bytes = .ok (a, rest) ↔ fits a ∧ bytes = write a ++ rest

theorem Inverts.take_append {α : Type} {take : Bytes → Except TableFault (α × Bytes)}
    {fits : α → Prop} {write : α → Bytes} (h : Inverts take fits write) (a : α) (ha : fits a)
    (rest : Bytes) : take (write a ++ rest) = .ok (a, rest) :=
  (h _ a rest).2 ⟨ha, rfl⟩

/-- A count or a length that its field has room for. -/
def Fits (length : Nat) : Prop := length < capacity lengthWidth

def FitsText (text : String) : Prop := Fits (Utf8.encode text).length

structure FitsRecord (m : EmbeddedModule) : Prop where
  key : FitsText m.key
  dirname : FitsText m.dirname
  code : Fits m.code.length

theorem takeBytes_eq_ok_iff (count : Nat) (bytes taken rest : Bytes) :
    takeBytes count bytes = .ok (taken, rest) ↔ taken.length = count ∧ bytes = taken ++ rest := by
  rw [takeBytes]
  constructor
  · intro h
    split at h
    · cases h
    · next hlength =>
      cases h
      refine ⟨?_, (List.take_append_drop count bytes).symm⟩
      rw [List.length_take]
      omega
  · rintro ⟨rfl, rfl⟩
    rw [if_neg (by rw [List.length_append]; omega), List.take_left, List.drop_left]

theorem takeLength_inverts : Inverts takeLength Fits (Bytes.ofNat lengthWidth) := by
  intro bytes n rest
  rw [takeLength]
  constructor
  · intro h
    split at h
    · cases h
    · next hlength =>
      have hwidth : (bytes.take lengthWidth).length = lengthWidth := by
        rw [List.length_take]
        omega
      cases h
      constructor
      · have hlt := Bytes.toNat_lt (bytes.take lengthWidth)
        rwa [hwidth] at hlt
      · have hback := Bytes.ofNat_toNat (bytes.take lengthWidth)
        rw [hwidth] at hback
        rw [hback, List.take_append_drop]
  · rintro ⟨hfits, rfl⟩
    have hwidth := Bytes.length_ofNat lengthWidth n
    have htake : (Bytes.ofNat lengthWidth n ++ rest).take lengthWidth =
        Bytes.ofNat lengthWidth n := List.take_left' hwidth
    have hdrop : (Bytes.ofNat lengthWidth n ++ rest).drop lengthWidth = rest :=
      List.drop_left' hwidth
    rw [if_neg (by rw [List.length_append]; omega), htake, hdrop,
      Bytes.toNat_ofNat_of_lt lengthWidth n hfits]

theorem takeChunk_inverts : Inverts takeChunk (fun bytes => Fits bytes.length) chunk := by
  intro bytes taken rest
  rw [takeChunk, bind_eq_ok_iff]
  constructor
  · rintro ⟨⟨length, between⟩, hlength, htaken⟩
    obtain ⟨hfits, rfl⟩ := (takeLength_inverts _ _ _).1 hlength
    obtain ⟨rfl, rfl⟩ := (takeBytes_eq_ok_iff _ _ _ _).1 htaken
    exact ⟨hfits, by rw [chunk, List.append_assoc]⟩
  · rintro ⟨hfits, rfl⟩
    refine ⟨(taken.length, taken ++ rest), ?_, ?_⟩
    · rw [chunk, List.append_assoc]
      exact takeLength_inverts.take_append taken.length hfits (taken ++ rest)
    · exact (takeBytes_eq_ok_iff _ _ _ _).2 ⟨rfl, rfl⟩

theorem takeText_inverts : Inverts takeText FitsText textChunk := by
  intro bytes text rest
  rw [takeText, bind_eq_ok_iff]
  constructor
  · rintro ⟨⟨encoded, after⟩, hchunk, htext⟩
    obtain ⟨hfits, rfl⟩ := (takeChunk_inverts _ _ _).1 hchunk
    simp only at htext
    split at htext
    · next decoded hdecode =>
      cases htext
      rw [(Utf8.decode_eq_ok_iff encoded text).1 hdecode] at hfits ⊢
      exact ⟨hfits, rfl⟩
    · cases htext
  · rintro ⟨hfits, rfl⟩
    refine ⟨(Utf8.encode text, rest), takeChunk_inverts.take_append _ hfits rest, ?_⟩
    simp only [Utf8.decode_encode]

theorem takeTag_eq_ok_iff (bytes : Bytes) (tag : UInt8) (rest : Bytes) :
    takeTag bytes = .ok (tag, rest) ↔ bytes = tag :: rest := by
  cases bytes with
  | nil => simp [takeTag]
  | cons b after => simp [takeTag]

theorem takeRecord_inverts : Inverts takeRecord FitsRecord record := by
  intro bytes m rest
  rw [takeRecord, bind_eq_ok_iff]
  constructor
  · rintro ⟨⟨key, afterKey⟩, hkey, h⟩
    obtain ⟨hkeyFits, rfl⟩ := (takeText_inverts _ _ _).1 hkey
    simp only [bind_eq_ok_iff] at h
    obtain ⟨⟨tag, afterTag⟩, htag, h⟩ := h
    rw [takeTag_eq_ok_iff] at htag
    subst htag
    simp only at h
    split at h
    · cases h
    · next space hspace =>
      rw [bind_eq_ok_iff] at h
      obtain ⟨⟨dirname, afterDirname⟩, hdirname, h⟩ := h
      obtain ⟨hdirnameFits, rfl⟩ := (takeText_inverts _ _ _).1 hdirname
      simp only [bind_eq_ok_iff] at h
      obtain ⟨⟨code, afterCode⟩, hcode, h⟩ := h
      obtain ⟨hcodeFits, rfl⟩ := (takeChunk_inverts _ _ _).1 hcode
      cases h
      refine ⟨⟨hkeyFits, hdirnameFits, hcodeFits⟩, ?_⟩
      simp [record, Namespace.tag_of_ofTag? hspace]
  · rintro ⟨hfits, rfl⟩
    have hbytes : record m ++ rest =
        textChunk m.key ++ m.space.tag :: (textChunk m.dirname ++ (chunk m.code ++ rest)) := by
      simp [record]
    have hkey := takeText_inverts.take_append m.key hfits.key
      (m.space.tag :: (textChunk m.dirname ++ (chunk m.code ++ rest)))
    have hdirname := takeText_inverts.take_append m.dirname hfits.dirname (chunk m.code ++ rest)
    have hcode := takeChunk_inverts.take_append m.code hfits.code rest
    refine ⟨_, hbytes ▸ hkey, ?_⟩
    simp only [takeTag, bind, Except.bind, Namespace.ofTag?_tag, hdirname, hcode]

theorem takeEntries_eq_ok_iff (count : Nat) (table after : Table) (bytes rest : Bytes) :
    takeEntries count table bytes = .ok (after, rest) ↔
      ∃ keys : List String, keys.length = count ∧ (∀ key ∈ keys, FitsText key) ∧
        bytes = keys.flatMap textChunk ++ rest ∧ after = keys.foldl addEntry table := by
  induction count generalizing table bytes with
  | zero =>
    rw [takeEntries]
    constructor
    · intro h
      cases h
      exact ⟨[], rfl, by simp, rfl, rfl⟩
    · rintro ⟨keys, hlength, _, rfl, rfl⟩
      rw [List.length_eq_zero_iff.1 hlength]
      rfl
  | succ count ih =>
    rw [takeEntries, bind_eq_ok_iff]
    constructor
    · rintro ⟨⟨key, between⟩, hkey, hrest⟩
      obtain ⟨hfits, rfl⟩ := (takeText_inverts _ _ _).1 hkey
      obtain ⟨keys, hlength, hkeys, rfl, rfl⟩ := (ih _ _).1 hrest
      refine ⟨key :: keys, by rw [List.length_cons, hlength], ?_, ?_, rfl⟩
      · exact List.forall_mem_cons.2 ⟨hfits, hkeys⟩
      · rw [List.flatMap_cons, List.append_assoc]
    · rintro ⟨keys, hlength, hkeys, rfl, rfl⟩
      obtain ⟨key, keys, rfl⟩ := List.exists_cons_of_length_eq_add_one hlength
      obtain ⟨hfits, hkeys⟩ := List.forall_mem_cons.1 hkeys
      refine ⟨(key, keys.flatMap textChunk ++ rest), ?_, ?_⟩
      · rw [List.flatMap_cons, List.append_assoc]
        exact takeText_inverts.take_append key hfits _
      · exact (ih _ _).2 ⟨keys, Nat.succ.inj hlength, hkeys, rfl, rfl⟩

theorem contains_insert (table : Table) (m : EmbeddedModule) (key : String) :
    (table.insert m).contains key = (decide (m.key = key) || table.contains key) := by
  rw [contains, get?, insert, findByKey_insertByKey, contains, get?]
  by_cases hkey : m.key = key
  · simp [hkey]
  · simp [hkey]

/-- Modules are taken only if none of them has a key that the table has already. -/
theorem takeModules_eq_ok_iff (count : Nat) (table after : Table) (bytes rest : Bytes) :
    takeModules count table bytes = .ok (after, rest) ↔
      ∃ modules : List EmbeddedModule, modules.length = count ∧ (∀ m ∈ modules, FitsRecord m) ∧
        bytes = modules.flatMap record ++ rest ∧
        (modules.map EmbeddedModule.key).Nodup ∧
        (∀ m ∈ modules, table.contains m.key = false) ∧
        after = modules.foldl insert table := by
  induction count generalizing table bytes with
  | zero =>
    rw [takeModules]
    constructor
    · intro h
      cases h
      exact ⟨[], rfl, by simp, rfl, by simp, by simp, rfl⟩
    · rintro ⟨modules, hlength, _, rfl, _, _, rfl⟩
      rw [List.length_eq_zero_iff.1 hlength]
      rfl
  | succ count ih =>
    rw [takeModules, bind_eq_ok_iff]
    constructor
    · rintro ⟨⟨m, between⟩, hm, h⟩
      obtain ⟨hfits, rfl⟩ := (takeRecord_inverts _ _ _).1 hm
      simp only at h
      split at h
      · cases h
      · next hnew =>
        obtain ⟨modules, hlength, hall, rfl, hnodup, hother, rfl⟩ := (ih _ _).1 h
        have hapart : ∀ n ∈ modules, m.key ≠ n.key ∧ table.contains n.key = false := by
          intro n hn
          have hnone := hother n hn
          rw [contains_insert, Bool.or_eq_false_iff] at hnone
          exact ⟨by simpa using hnone.1, hnone.2⟩
        refine ⟨m :: modules, by rw [List.length_cons, hlength], ?_, ?_, ?_, ?_, rfl⟩
        · exact List.forall_mem_cons.2 ⟨hfits, hall⟩
        · rw [List.flatMap_cons, List.append_assoc]
        · rw [List.map_cons, List.nodup_cons]
          refine ⟨fun hmem => ?_, hnodup⟩
          obtain ⟨n, hn, hkey⟩ := List.mem_map.1 hmem
          exact (hapart n hn).1 hkey.symm
        · exact List.forall_mem_cons.2 ⟨by simpa using hnew, fun n hn => (hapart n hn).2⟩
    · rintro ⟨modules, hlength, hall, rfl, hnodup, hnone, rfl⟩
      obtain ⟨m, modules, rfl⟩ := List.exists_cons_of_length_eq_add_one hlength
      obtain ⟨hfits, hall⟩ := List.forall_mem_cons.1 hall
      obtain ⟨hnew, hnone⟩ := List.forall_mem_cons.1 hnone
      obtain ⟨hm, hnodup⟩ := List.nodup_cons.1 hnodup
      refine ⟨(m, modules.flatMap record ++ rest), ?_, ?_⟩
      · rw [List.flatMap_cons, List.append_assoc]
        exact takeRecord_inverts.take_append m hfits _
      · have hother : ∀ n ∈ modules, (table.insert m).contains n.key = false := by
          intro n hn
          have hkey : m.key ≠ n.key := fun heq => hm (heq ▸ List.mem_map_of_mem hn)
          rw [contains_insert, hnone n hn]
          simp [hkey]
        simp only [hnew, Bool.false_eq_true, if_false]
        exact (ih _ _).2 ⟨modules, Nat.succ.inj hlength, hall, rfl, hnodup, hother, rfl⟩

/-- What can be written of some entries and modules. -/
structure Writable (entries : List String) (modules : List EmbeddedModule) : Prop where
  entryCount_fits : Fits entries.length
  entries_fit : ∀ key ∈ entries, FitsText key
  moduleCount_fits : Fits modules.length
  modules_fit : ∀ m ∈ modules, FitsRecord m
  keys_nodup : (modules.map EmbeddedModule.key).Nodup

/-- The payload of entries and modules in any order, entries perhaps repeated. -/
def payloadOf (entries : List String) (modules : List EmbeddedModule) : Bytes :=
  magic ++ Bytes.ofNat lengthWidth entries.length ++ entries.flatMap textChunk ++
    Bytes.ofNat lengthWidth modules.length ++ modules.flatMap record

theorem takeTable_eq_ok_iff (bytes rest : Bytes) (table : Table) :
    takeTable bytes = .ok (table, rest) ↔
      ∃ entries modules, Writable entries modules ∧ bytes = payloadOf entries modules ++ rest ∧
        table = modules.foldl insert (entries.foldl addEntry empty) := by
  rw [takeTable, bind_eq_ok_iff]
  constructor
  · rintro ⟨⟨found, afterMagic⟩, hmagic, h⟩
    obtain ⟨_, rfl⟩ := (takeBytes_eq_ok_iff _ _ _ _).1 hmagic
    simp only at h
    split at h
    · cases h
    · next hfound =>
      rw [ne_eq, Classical.not_not] at hfound
      subst hfound
      simp only [bind_eq_ok_iff, Prod.exists] at h
      obtain ⟨entryCount, afterCount, hcount, filled, afterEntries, hentries, moduleCount,
        afterModules, hmoduleCount, hmodules⟩ := h
      obtain ⟨hcountFits, rfl⟩ := (takeLength_inverts _ _ _).1 hcount
      obtain ⟨entries, rfl, hall, rfl, rfl⟩ := (takeEntries_eq_ok_iff _ _ _ _ _).1 hentries
      obtain ⟨hmoduleFits, rfl⟩ := (takeLength_inverts _ _ _).1 hmoduleCount
      obtain ⟨modules, rfl, hrecords, rfl, hnodup, _, rfl⟩ :=
        (takeModules_eq_ok_iff _ _ _ _ _).1 hmodules
      exact ⟨entries, modules, ⟨hcountFits, hall, hmoduleFits, hrecords, hnodup⟩,
        by simp [payloadOf], rfl⟩
  · rintro ⟨entries, modules, hwritable, rfl, rfl⟩
    have hbytes : payloadOf entries modules ++ rest =
        magic ++ (Bytes.ofNat lengthWidth entries.length ++ (entries.flatMap textChunk ++
          (Bytes.ofNat lengthWidth modules.length ++ (modules.flatMap record ++ rest)))) := by
      simp [payloadOf]
    have hmagic : ∀ after, takeBytes magic.length (magic ++ after) = .ok (magic, after) :=
      fun after => (takeBytes_eq_ok_iff _ _ magic after).2 ⟨rfl, rfl⟩
    have hcount := takeLength_inverts.take_append _ hwritable.entryCount_fits
    have hentries : ∀ after, takeEntries entries.length empty (entries.flatMap textChunk ++ after) =
        .ok (entries.foldl addEntry empty, after) := fun after =>
      (takeEntries_eq_ok_iff _ _ _ _ after).2 ⟨entries, rfl, hwritable.entries_fit, rfl, rfl⟩
    have hmoduleCount := takeLength_inverts.take_append _ hwritable.moduleCount_fits
    have hnone : ∀ m ∈ modules, (entries.foldl addEntry empty).contains m.key = false := by
      intro m hm
      rw [contains, get?, modules_foldl_addEntry]
      rfl
    have hmodules := (takeModules_eq_ok_iff modules.length _ _ _ rest).2
      ⟨modules, rfl, hwritable.modules_fit, rfl, hwritable.keys_nodup, hnone, rfl⟩
    rw [hbytes]
    refine ⟨_, hmagic _, ?_⟩
    simp only [ne_eq, not_true_eq_false, if_false, hcount, bind, Except.bind, hentries,
      hmoduleCount, hmodules]

theorem decode_eq_ok_iff (bytes : Bytes) (table : Table) :
    decode bytes = .ok table ↔
      ∃ entries modules, Writable entries modules ∧ bytes = payloadOf entries modules ∧
        table = modules.foldl insert (entries.foldl addEntry empty) := by
  have htake : decode bytes = .ok table ↔ takeTable bytes = .ok (table, []) := by
    rw [decode]
    split
    · next found hfound => simp [hfound]
    · next found rest hrest hfound => simpa [hfound] using fun _ => hrest
    · next fault hfault => simp [hfault]
  rw [htake, takeTable_eq_ok_iff]
  simp only [List.append_nil]

/-- The lengths of a table fit if and only if all its parts can be written. -/
theorem writable_iff (table : Table) :
    Writable table.entries table.modules ↔ ∀ length ∈ table.lengths, Fits length := by
  have hnodup := nodup_of_ascending table.modules_ascending
  simp only [lengths, List.cons_append, List.forall_mem_cons, List.forall_mem_append,
    List.forall_mem_map, List.mem_flatMap]
  constructor
  · intro h
    refine ⟨h.entryCount_fits, h.entries_fit, h.moduleCount_fits, ?_⟩
    rintro length ⟨m, hm, hlength⟩
    have hrecord := h.modules_fit m hm
    simp only [List.mem_cons, List.not_mem_nil, or_false] at hlength
    rcases hlength with rfl | rfl | rfl
    · exact hrecord.key
    · exact hrecord.dirname
    · exact hrecord.code
  · rintro ⟨hentryCount, hentries, hmoduleCount, hmodules⟩
    refine ⟨hentryCount, hentries, hmoduleCount, fun m hm => ?_, hnodup⟩
    exact ⟨hmodules _ ⟨m, hm, by simp⟩, hmodules _ ⟨m, hm, by simp⟩, hmodules _ ⟨m, hm, by simp⟩⟩

theorem encode_of_fits (table : Table) (h : ∀ length ∈ table.lengths, Fits length) :
    table.encode = .ok table.payload := by
  have hnone : (table.lengths.find? fun length =>
      decide (capacity lengthWidth ≤ length)) = none := by
    refine List.find?_eq_none.2 fun length hlength => ?_
    have hfits : length < capacity lengthWidth := h length hlength
    simpa using hfits
  rw [encode, hnone]

theorem encode_eq_ok_iff (table : Table) (payload : Bytes) :
    table.encode = .ok payload ↔
      (∀ length ∈ table.lengths, Fits length) ∧ payload = table.payload := by
  constructor
  · intro h
    have hfits : ∀ length ∈ table.lengths, Fits length := by
      unfold encode at h
      split at h
      · cases h
      · next hnone =>
        intro length hlength
        have hlarge := List.find?_eq_none.1 hnone length hlength
        exact Nat.lt_of_not_le fun hle => hlarge (decide_eq_true hle)
    rw [encode_of_fits table hfits] at h
    exact ⟨hfits, (Except.ok.inj h).symm⟩
  · intro h
    rw [h.2]
    exact encode_of_fits table h.1

/-- Reading the payload of a table gives the table back. -/
theorem decode_payload (table : Table) (h : ∀ length ∈ table.lengths, Fits length) :
    decode table.payload = .ok table := by
  rw [decode_eq_ok_iff]
  exact ⟨table.entries, table.modules, (writable_iff table).2 h, rfl,
    (foldl_insert_foldl_addEntry table).symm⟩

end ModuleLoading.Table
