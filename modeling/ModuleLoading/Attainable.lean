import ModuleLoading.Load

/-!
Only finitely many keys can come out of a resolver, whatever the files are: the
key of a file is no longer than the candidate limit, and the other keys are those
of the table and the names of the builtin modules. This is why walks that visit
every key once come to an end.
-/
namespace ModuleLoading

namespace Resolver

def Attainable (resolver : Resolver) (key : String) : Prop :=
  key.utf8ByteSize ≤ resolver.settings.candidateLimit ∨ key ∈ resolver.table.keys ∨
    key ∈ resolver.builtins.names

end Resolver

private theorem size_of_underRoots {resolver : Resolver} {files : FileView} {request : Request}
    {order : List Form} {roots : List String} {found : Resolved}
    (h : resolver.underRoots files request order roots = .ok (some found)) :
    found.identity.key.utf8ByteSize ≤ resolver.settings.candidateLimit := by
  unfold Resolver.underRoots at h
  split at h
  · cases h
  · cases h
  · next hprobe =>
    cases h
    exact size_of_probeRoots hprobe

private theorem size_of_atPath {resolver : Resolver} {files : FileView} {key : String}
    {found : Resolved} (h : resolver.atPath files key = .ok (some found)) :
    found.identity.key.utf8ByteSize ≤ resolver.settings.candidateLimit := by
  unfold Resolver.atPath at h
  split at h
  · cases h
  · cases h
  · next hprobe =>
    cases h
    exact size_of_probe hprobe

/-- The key of a module found on disk fits the candidate limit. -/
theorem size_of_file? {resolver : Resolver} {files : FileView} {request : Request}
    {found : Resolved} (h : resolver.file? files request = .ok (some found)) :
    found.identity.key.utf8ByteSize ≤ resolver.settings.candidateLimit := by
  unfold Resolver.file? at h
  split at h
  · exact size_of_atPath h
  · exact size_of_underRoots h
  · unfold Resolver.bareFile at h
    split at h
    · split at h
      · exact size_of_atPath h
      · cases h
    · exact size_of_underRoots h

private theorem name_of_fromEngine {resolver : Resolver} {raw : String} {found : Resolved}
    (h : resolver.fromEngine raw = .ok found) :
    found.identity.key ∈ resolver.builtins.names := by
  unfold Resolver.fromEngine at h
  split at h
  · next code hsource =>
    cases h
    obtain ⟨entry, hfind, _⟩ := Option.map_eq_some_iff.1 hsource
    have hname : entry.1 = raw := by simpa using List.find?_some hfind
    exact hname ▸ List.mem_map_of_mem (List.mem_of_find?_eq_some hfind)
  · cases h

theorem attainable_of_resolve {resolver : Resolver} {files : FileView} {raw : String}
    {base : BaseDir} {found : Resolved} (h : resolver.resolve files raw base = .ok found) :
    resolver.Attainable found.identity.key := by
  rcases (resolver.resolve_eq_ok_iff files raw base found).1 h with
    ⟨m, hembedded, rfl⟩ | ⟨_, hfile | ⟨_, hengine⟩⟩
  · exact .inr (.inl (List.mem_map_of_mem (Resolver.mem_of_embedded? hembedded)))
  · exact .inl (size_of_file? hfile)
  · exact .inr (.inr (name_of_fromEngine hengine))

theorem attainable_of_load {resolver : Resolver} {files : FileView} {specifier : String}
    {referrer : Option Identity} {loaded : Loaded}
    (h : resolver.load files specifier referrer = .ok loaded) :
    resolver.Attainable loaded.identity.key := by
  obtain ⟨found, hresolve, hread⟩ := (resolver.load_eq_ok_iff files specifier referrer loaded).1 h
  rw [identity_of_read hread]
  exact attainable_of_resolve hresolve

private theorem exists_all_chars : ∃ chars : List Char, ∀ c : Char, c ∈ chars := by
  refine ⟨(List.range (0x10FFFF + 1)).map Char.ofNat, fun c => ?_⟩
  refine List.mem_map.2 ⟨c.toNat, ?_, Char.ofNat_toNat c⟩
  have hvalid := c.valid
  rw [List.mem_range]
  simp only [UInt32.isValidChar, Nat.isValidChar] at hvalid
  simp only [Char.toNat]
  omega

private theorem exists_all_words (n : Nat) :
    ∃ words : List (List Char), ∀ word : List Char, word.length ≤ n → word ∈ words := by
  obtain ⟨chars, hchars⟩ := exists_all_chars
  induction n with
  | zero => exact ⟨[[]], fun word h => by simp [List.length_eq_zero_iff.1 (Nat.le_zero.1 h)]⟩
  | succ n ih =>
    obtain ⟨words, hwords⟩ := ih
    refine ⟨[] :: chars.flatMap fun c => words.map (c :: ·), fun word h => ?_⟩
    cases word with
    | nil => exact List.mem_cons_self
    | cons c word =>
      refine List.mem_cons_of_mem _ (List.mem_flatMap.2 ⟨c, hchars c, ?_⟩)
      exact List.mem_map_of_mem (hwords word (Nat.le_of_succ_le_succ h))

private theorem length_le_size (word : List Char) :
    word.length ≤ (String.ofList word).utf8ByteSize := by
  induction word with
  | nil => simp
  | cons c word ih =>
    have hsplit : String.ofList (c :: word) = String.singleton c ++ String.ofList word := by
      apply String.toList_injective
      simp
    rw [hsplit, String.utf8ByteSize_append, String.utf8ByteSize_singleton, List.length_cons]
    have := c.utf8Size_pos
    omega

theorem exists_attainable_list (resolver : Resolver) :
    ∃ keys : List String, ∀ key, resolver.Attainable key → key ∈ keys := by
  obtain ⟨words, hwords⟩ := exists_all_words resolver.settings.candidateLimit
  refine ⟨words.map String.ofList ++ (resolver.table.keys ++ resolver.builtins.names), ?_⟩
  intro key h
  rcases h with h | h | h
  · refine List.mem_append_left _ (List.mem_map.2 ⟨key.toList, hwords _ ?_, String.ofList_toList⟩)
    have hsize := length_le_size key.toList
    rw [String.ofList_toList] at hsize
    omega
  · exact List.mem_append_right _ (List.mem_append_left _ h)
  · exact List.mem_append_right _ (List.mem_append_right _ h)

namespace Resolver

noncomputable def attainableKeys (resolver : Resolver) : List String :=
  (exists_attainable_list resolver).choose

theorem mem_attainableKeys {resolver : Resolver} {key : String} (h : resolver.Attainable key) :
    key ∈ resolver.attainableKeys :=
  (exists_attainable_list resolver).choose_spec key h

/-- How many keys a walk that has seen the given ones may still come to. -/
noncomputable def unseen (resolver : Resolver) (seen : List String) : Nat :=
  resolver.attainableKeys.countP fun key => decide (key ∉ seen)

theorem unseen_le {resolver : Resolver} {before after : List String}
    (h : ∀ key ∈ before, key ∈ after) : resolver.unseen after ≤ resolver.unseen before := by
  refine List.countP_mono_left fun key _ hkey => ?_
  simp only [decide_eq_true_eq] at hkey ⊢
  exact fun hbefore => hkey (h key hbefore)

private theorem countP_lt {α : Type} {p q : α → Bool} {list : List α} {a : α} (ha : a ∈ list)
    (hp : p a = false) (hq : q a = true) (h : ∀ x, p x = true → q x = true) :
    list.countP p < list.countP q := by
  induction list with
  | nil => cases ha
  | cons b rest ih =>
    have hle : rest.countP p ≤ rest.countP q := List.countP_mono_left fun x _ => h x
    rcases List.mem_cons.1 ha with rfl | hmem
    · simp only [List.countP_cons, hp, hq]
      simp only [Bool.false_eq_true, if_false, if_true]
      omega
    · have hlt := ih hmem
      rw [List.countP_cons, List.countP_cons]
      by_cases hb : p b = true
      · rw [if_pos hb, if_pos (h b hb)]
        exact Nat.add_lt_add_right hlt 1
      · rw [if_neg hb]
        exact Nat.lt_of_lt_of_le hlt (Nat.le_add_right _ _)

theorem unseen_lt {resolver : Resolver} {before after : List String} {key : String}
    (h : ∀ key ∈ before, key ∈ after) (hkey : resolver.Attainable key) (hnew : key ∉ before)
    (hseen : key ∈ after) : resolver.unseen after < resolver.unseen before := by
  refine countP_lt (mem_attainableKeys hkey) (by simpa using hseen) (by simpa using hnew) ?_
  intro x hx
  simp only [decide_eq_true_eq] at hx ⊢
  exact fun hbefore => hx (h x hbefore)

end Resolver

end ModuleLoading
