import ModuleLoading.Proofs.BlankedText
import ModuleLoading.Proofs.DeclarationReadings
import ModuleLoading.Proofs.PlacedLines

/-!
Sources that consist of declarations, each on a line of its own. Every line is copied by
blanking and found by the one pass that is there for it, so that the outline shows the
declarations of the source and nothing else, in their order.
-/
namespace ModuleLoading.Source

open Reading

/-- A declaration on a line of its own. -/
structure Line where
  layout : LineLayout
  declaration : Declaration

namespace Line

def text (line : Line) : List Char := line.declaration.text line.layout.toLayout ++ [';']

def source (lines : List Line) : String :=
  String.ofList (lines.flatMap fun line => line.text ++ ['\n'])

end Line

theorem blank_lines (lines : List Line) :
    blank (Line.source lines).toList = lines.flatMap fun line => line.text ++ ['\n'] := by
  rw [Line.source, String.toList_ofList]
  induction lines with
  | nil => rfl
  | cons line rest ih =>
    have hline := blankFrom_line line.layout.toLayout
      (rest.flatMap fun line => line.text ++ ['\n']) line.declaration
    simp only [List.flatMap_cons, Line.text, List.append_assoc, List.cons_append, List.nil_append]
      at ih hline ⊢
    rw [blank, hline]
    exact congrArg (fun text => _ ++ ';' :: '\n' :: text) ih

namespace Line

variable {α γ : Type} {reading : Reading α} {keep : Occurrence α → Option (Placed γ)}
  (line : Line) (tail : List Char)

theorem last_text : ∃ c ∈ line.text.getLast?, c ≠ '\n' := ⟨';', by simp [text], by decide⟩

theorem notMem_lineEnd : '\n' ∉ line.text := by
  have h := line.declaration.notMem_lineEnd line.layout
  simp [text, h]

theorem yields_nothing (h : reading (line.text ++ '\n' :: tail) = []) :
    Yields reading keep line.text ('\n' :: tail) [] :=
  (silent_of_notMem line.notMem_lineEnd).passes.yields h line.last_text (by simp)

theorem yields_first (front back : List Char) (hline : line.text = front ++ back) (hfront : front ≠ [])
    {a : α} {found : Option γ}
    (h : reading.Finds (front ++ (back ++ '\n' :: tail)) a (back ++ '\n' :: tail))
    (hkeep : ∀ offset, keep ⟨offset, a, back ++ '\n' :: tail⟩ = found.map (offset, ·)) :
    Yields reading keep line.text ('\n' :: tail) (found.map (0, ·)).toList := by
  have hline' := line.notMem_lineEnd
  have hlast := line.last_text
  rw [hline] at hline' hlast ⊢
  have hfrontLast : ∃ c ∈ front.getLast?, c ≠ '\n' := by
    refine ⟨front.getLast hfront, List.getLast?_eq_some_getLast hfront, fun heq => hline' ?_⟩
    exact List.mem_append_left back (heq ▸ List.getLast_mem hfront)
  have hback : Silent reading back ('\n' :: tail) :=
    silent_of_notMem fun hmem => hline' (List.mem_append_right front hmem)
  have hyields := hback.passes.yields_first hfrontLast hlast (by simp) h hkeep
  rwa [List.map_nil, List.append_nil] at hyields

/-- A reading that finds what the whole declaration says. -/
theorem yields_of_head? (found : Option α)
    (h : (reading (line.declaration.text line.layout.toLayout ++ ';' :: '\n' :: tail)).head? =
      found.map (·, ';' :: '\n' :: tail)) :
    Yields reading placeFound line.text ('\n' :: tail) (found.map (0, ·)).toList := by
  cases found with
  | none =>
    refine line.yields_nothing tail ?_
    rw [text, List.append_assoc]
    exact List.head?_eq_none_iff.1 h
  | some a =>
    exact line.yields_first tail _ [';'] rfl (line.declaration.text_ne_nil _) h fun _ => rfl

theorem yields_localExport_link (layout : LineLayout) (link : Link) :
    Yields localExport localExported (Line.mk layout (.linking link)).text ('\n' :: tail) [] := by
  have hcases := @localExport_link layout.toLayout (';' :: '\n' :: tail) layout.keyword_ne_nil link
  rcases hcases with hnone | ⟨items, front, after, hsplit, hfront, hlist, hfrom⟩
  · refine yields_nothing _ tail ?_
    rw [text, List.append_assoc]
    exact hnone
  · have hline : (Line.mk layout (.linking link)).text = front ++ (after ++ [';']) := by
      rw [← List.append_assoc, ← hsplit]
      rfl
    have hafter : (after ++ [';']) ++ '\n' :: tail = after ++ ';' :: '\n' :: tail :=
      List.append_assoc ..
    rw [hsplit, List.append_assoc, ← hafter] at hlist
    rw [← hafter] at hfrom
    -- "from" comes after the list, so that it counts for nothing here
    have hkeep : ∀ offset, localExported ⟨offset, .list items, (after ++ [';']) ++ '\n' :: tail⟩ =
        (none : Option ExportDeclaration).map (offset, ·) := fun offset => if_pos hfrom
    exact yields_first _ tail front _ hline hfront (finds_of_eq hlist) hkeep

theorem yields_localExport_own (layout : LineLayout) (own : Own) :
    Yields localExport localExported (Line.mk layout (.owning own)).text ('\n' :: tail)
      [(0, ⟨own.exported pairs, none⟩)] := by
  have hline : (Line.mk layout (.owning own)).text =
      own.front layout.toLayout ++ (own.back ++ [';']) := List.append_assoc ..
  have hback : (own.back ++ [';']) ++ '\n' :: tail = own.back ++ ';' :: '\n' :: tail :=
    List.append_assoc ..
  have hfinds := @localExport_own layout.toLayout (';' :: '\n' :: tail) layout.keyword_ne_nil own
  rw [← hback] at hfinds
  have hkeep : ∀ offset, localExported ⟨offset, own.found layout.toLayout,
      (own.back ++ [';']) ++ '\n' :: tail⟩ = (some ⟨own.exported pairs, none⟩).map (offset, ·) := by
    intro offset
    cases own with
    | default => rfl
    | single kind name => rfl
    | list items =>
      have hnext : isFromNext (((Own.list items).back ++ [';']) ++ '\n' :: tail) = false := rfl
      simp only [Own.found, localExported, hnext, exportedList_list, layout.read_eq]
      rfl
  exact yields_first _ tail _ _ hline (by simp [Own.front_eq]) hfinds hkeep

theorem yields_localExport : Yields localExport localExported line.text ('\n' :: tail)
    ((line.declaration.ownExport? pairs).map (0, ·)).toList := by
  obtain ⟨layout, declaration⟩ := line
  cases declaration with
  | linking link => exact yields_localExport_link tail layout link
  | owning own => exact yields_localExport_own tail layout own

end Line

section Outline

variable {α : Type} (lines : List Line)

theorem placed_lines (reading : Reading α) (found : Line → Option α)
    (h : ∀ line : Line, ∀ tail,
      (reading (line.declaration.text line.layout.toLayout ++ ';' :: '\n' :: tail)).head? =
        (found line).map (·, ';' :: '\n' :: tail)) :
    placed reading (lines.flatMap fun line => line.text ++ ['\n']) =
      keepPlaced found (linesFrom Line.text 0 lines) := by
  rw [placed_eq_filterMap]
  exact filterMap_occurrences_lines reading placeFound Line.text _
    (fun line tail => line.yields_of_head? tail _ (h line tail)) lines

theorem imports_lines : (outline (Line.source lines)).imports =
    keepPlaced (fun line => line.declaration.import? pairs) (linesFrom Line.text 0 lines) := by
  have hbinding := placed_lines lines bindingImport
    (fun line => line.declaration.binding? line.layout.toLayout)
    fun line tail => line.declaration.head?_bindingImport _ _
  have hbare := placed_lines lines sideEffectImport (fun line => line.declaration.bare?)
    fun line tail => line.declaration.head?_sideEffectImport _ _
  rw [outline, blank_lines, hbinding, hbare]
  simp only [fun line : Line => line.declaration.import?_eq line.layout]
  refine mergePlaced_keepPlaced _ _ _ (ascending_linesFrom Line.text 0 lines) fun p _ => ?_
  rcases p.2.declaration with ⟨_ | _ | offered, target⟩ | _
  · exact .inl (Link.binding?_sideEffect _ target)
  · exact .inr rfl
  · exact .inl (Link.binding?_reExport _ offered target)
  · exact .inl rfl

theorem exports_lines : (outline (Line.source lines)).exports =
    keepPlaced (fun line => line.declaration.export? pairs) (linesFrom Line.text 0 lines) := by
  have hreExport := placed_lines lines reExport
    (fun line => line.declaration.reExport? line.layout.toLayout)
    fun line tail => line.declaration.head?_reExport _ _ line.layout.keyword_ne_nil
  have hown := filterMap_occurrences_lines localExport localExported Line.text
    (fun line => line.declaration.ownExport? pairs) (fun line tail => line.yields_localExport tail) lines
  rw [outline, blank_lines, hreExport, hown]
  simp only [fun line : Line => line.declaration.export?_eq line.layout]
  refine mergePlaced_keepPlaced _ _ _ (ascending_linesFrom Line.text 0 lines) fun p _ => ?_
  cases p.2.declaration with
  | linking link => exact .inr rfl
  | owning own => exact .inl rfl

/-- A source of declarations, one on a line, shows these and nothing else. -/
theorem outline_of_lines :
    (outline (Line.source lines)).imports.map Prod.snd =
        lines.filterMap (fun line => line.declaration.import? pairs) ∧
      (outline (Line.source lines)).exports.map Prod.snd =
        lines.filterMap (fun line => line.declaration.export? pairs) ∧
      (outline (Line.source lines)).staticSpecifiers =
        distinct (lines.filterMap fun line => line.declaration.target?) := by
  have himported : (outline (Line.source lines)).imports.map (fun p => (p.1, p.2.specifier)) =
      keepPlaced (fun line => (line.declaration.import? pairs).map ImportDeclaration.specifier)
        (linesFrom Line.text 0 lines) := by
    rw [imports_lines, ← List.filterMap_eq_map]
    have hkept := filterMap_keepPlaced (fun line : Line => line.declaration.import? pairs)
      (fun found => some found.specifier) (linesFrom Line.text 0 lines)
    simpa [Option.map_eq_bind, Function.comp_def] using hkept
  have hreExported : (outline (Line.source lines)).exports.filterMap
        (fun p => p.2.source.map (p.1, ·)) =
      keepPlaced (fun line => (line.declaration.export? pairs).bind ExportDeclaration.source)
        (linesFrom Line.text 0 lines) := by
    rw [exports_lines]
    exact filterMap_keepPlaced _ ExportDeclaration.source _
  have htarget : ∀ line : Line, ((line.declaration.import? pairs).map ImportDeclaration.specifier).or
      ((line.declaration.export? pairs).bind ExportDeclaration.source) = line.declaration.target? := by
    rintro ⟨_, ⟨_ | _ | _, _⟩ | _⟩
    all_goals rfl
  refine ⟨?_, ?_, ?_⟩
  · rw [imports_lines, map_keepPlaced, map_linesFrom]
  · rw [exports_lines, map_keepPlaced, map_linesFrom]
  · have hmerged := mergePlaced_keepPlaced
      (fun line : Line => (line.declaration.import? pairs).map ImportDeclaration.specifier)
      (fun line => (line.declaration.export? pairs).bind ExportDeclaration.source) _
      (ascending_linesFrom Line.text 0 lines) fun p _ => by
        rcases p.2.declaration with ⟨_ | _ | _, _⟩ | _
        · exact .inr rfl
        · exact .inr rfl
        · exact .inl rfl
        · exact .inl rfl
    simp only [htarget] at hmerged
    rw [staticSpecifiers_eq, himported, hreExported, hmerged, map_keepPlaced, map_linesFrom]

end Outline

namespace SinglySpaced

def d : Name := ⟨['d'], by decide, List.forall_mem_singleton.2 rfl⟩

def a : Name := ⟨['a'], by decide, List.forall_mem_singleton.2 rfl⟩

def b : Name := ⟨['b'], by decide, List.forall_mem_singleton.2 rfl⟩

def m : Target := ⟨['m'], by decide, List.forall_mem_singleton.2 ⟨rfl, by decide⟩⟩

def lines : List Line :=
  [⟨.single, .linking ⟨.importing (.both d (.list [⟨a, none⟩, ⟨a, some b⟩])), m⟩⟩,
    ⟨.single, .linking ⟨.reExport .everything, m⟩⟩, ⟨.single, .owning (.single .constant d)⟩]

theorem outline_of_singly_spaced :
    Line.source lines =
        "import d, { a, a as b } from 'm';\nexport * from 'm';\nexport const d = 0;\n" ∧
      (outline (Line.source lines)).imports.map Prod.snd =
        [⟨"m", [.default "d", .named "a" none, .named "a" (some "b")], false⟩] ∧
      (outline (Line.source lines)).exports.map Prod.snd =
        [⟨[.everything], some "m"⟩, ⟨[.named "d" none], none⟩] ∧
      (outline (Line.source lines)).staticSpecifiers = ["m"] :=
  ⟨rfl, outline_of_lines lines⟩

end SinglySpaced

end ModuleLoading.Source
