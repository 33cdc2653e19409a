import ClassIdiom.Proofs.ClassParts
import ClassIdiom.Proofs.MemberLines
import ClassIdiom.Proofs.WrittenText

/-! # Imports for what is written

The imports that a class needs are found by a search for their triggers in the text of the class.
Types and decorators stand apart in that text (`setApart_of_mem_printed`), so a trigger that occurs
in one of them occurs in the text, and the search finds it if no trigger has a border. The line of
the import then stands before the class (`exists_import_of_occurs`). The styles of C++ and Python
are such (`searchable_of_profile`), hence `imports_complete`. -/

namespace ClassIdiom

open Text (EndsApart StartsApart SetApart HasLine Occurs)

/-! ### What is written of a class -/

namespace Layout

variable {l : Layout} {c : Resolved}

/-- The lines above a class. -/
def classDecorators (l : Layout) (c : Resolved) : List String :=
  l.style.classDecorators ++ (l.style.classForm c.special).decorator.toList

/-- **The decorators and types of a class** as they are written, on the class and on its members. -/
def printed (l : Layout) (c : Resolved) : List String :=
  l.classDecorators c ++ c.members.flatMap fun x => l.decorators x ++ l.typeTexts x

/-- A member of a class that is written stands in one of its parts. -/
theorem WrittenIn.exists_part {parts : List Part} {text : String} (h : l.WrittenIn c parts text)
    {x : FlatMember} (hx : x ∈ c.members) :
    ∃ lines, .member x lines ∈ parts ∧ l.memberLines x = .ok lines := by
  rw [← h.members] at hx
  obtain ⟨⟨y, lines⟩, hy, rfl⟩ := List.mem_map.mp hx
  obtain ⟨part, hpart, hmember⟩ := List.mem_filterMap.mp hy
  cases part with
  | gap => exact nomatch hmember
  | label word => exact nomatch hmember
  | member z ls =>
    obtain ⟨rfl, rfl⟩ := Prod.mk.inj (Option.some.inj hmember)
    exact ⟨ls, hpart, h.lines z ls hpart⟩

/-- **What is written for a type or a decorator** stands apart in the text of the class. -/
theorem setApart_of_mem_printed (hi : EndsApart l.style.indent)
    (ht : StartsApart l.style.terminator) {parts : List Part} {text : String}
    (h : l.WrittenIn c parts text) {piece : String} (hp : piece ∈ l.printed c) :
    SetApart piece text := by
  suffices hline : ∃ line ∈ l.headLines c ++ parts.flatMap Part.lines, SetApart piece line.text by
    obtain ⟨line, hline, hset⟩ := hline
    rw [h.text]
    exact hset.trans (Writer.setApart_of_mem_lines hi
      (List.mem_append_left _ (List.mem_append_left _ hline)))
  rcases List.mem_append.mp hp with hp | hp
  · have hline : (⟨0, piece⟩ : Line) ∈ l.headLines c :=
      List.mem_append_left _ (List.mem_map_of_mem hp)
    exact ⟨_, List.mem_append_left _ hline, SetApart.refl piece⟩
  · obtain ⟨x, hx, hp⟩ := List.mem_flatMap.mp hp
    obtain ⟨lines, hpart, hlines⟩ := h.exists_part hx
    have hline : ∃ line ∈ lines, SetApart piece line.text := by
      rcases List.mem_append.mp hp with hp | hp
      · exact ⟨_, mem_lines_of_mem_decorators hlines hp, SetApart.refl piece⟩
      · exact exists_line_of_mem_typeTexts ht hlines hp
    obtain ⟨line, hline, hset⟩ := hline
    -- The lines of a member stand one level further in.
    have hnest : { line with depth := line.depth + 1 } ∈ (Part.member x lines).lines :=
      List.mem_map_of_mem hline
    exact ⟨_, List.mem_append_right _ (List.mem_flatMap.mpr ⟨_, hpart, hnest⟩), hset⟩

end Layout

/-! ### Import lines -/

namespace Preamble

variable {p : Preamble} {text : String} {i : AutoImport}

/-- An import whose triggers are found has a line, with its name among others. -/
theorem exists_autoImportLine (hi : i ∈ p.autoImports) (ht : triggered text i = true) :
    ∃ names, p.autoImportLine i.path names ∈ p.autoImportLines text ∧
      ∀ name, i.name = some name → name ∈ names := by
  have hmem : i ∈ p.autoImports.filter (triggered text) := List.mem_filter.mpr ⟨hi, ht⟩
  refine ⟨importedNames (p.autoImports.filter (triggered text)) i.path, ?_, fun name hname => ?_⟩
  · refine List.mem_map_of_mem ?_
    exact OrderedSet.mem_insertAll.mpr (Or.inr (List.mem_map_of_mem hmem))
  · refine OrderedSet.mem_insertAll.mpr (Or.inr ?_)
    exact List.mem_filterMap.mpr ⟨i, List.mem_filter.mpr ⟨hmem, beq_self_eq_true _⟩, hname⟩

theorem mem_groupLines {groups : List (List String)} {group : List String} {line : String}
    (hg : group ∈ groups) (hl : line ∈ group) : line ∈ groupLines groups := by
  have hne : (!group.isEmpty) = true := by
    rw [List.isEmpty_eq_false_iff_exists_mem.mpr ⟨line, hl⟩]
    rfl
  exact List.mem_flatMap.mpr ⟨group, List.mem_filter.mpr ⟨hg, hne⟩, List.mem_append_left _ hl⟩

end Preamble

namespace Style

variable {s : Style} {c : Resolved} {text : String}

/-- What is written before a class. -/
def preambleText (s : Style) (c : Resolved) (text : String) : String :=
  ((Writer.new s.indent).putLines (flush (Preamble.groupLines (s.preamble.groups c text)))).text

/-- A class as it is written in its file, in the block of its container if there is one. -/
def containedText (s : Style) (container : Option String) (text : String) : String :=
  ((Writer.new s.indent).putLines (s.containedLines container text)).text

theorem fileText_eq_append (s : Style) (c : Resolved) (text : String) :
    s.fileText c text = s.preambleText c text ++ s.containedText c.container text := by
  unfold fileText fileLines preambleText containedText
  rw [Writer.text_putLines_new, Writer.text_putLines_new, Writer.text_putLines_new,
    Writer.linesText_append]

theorem hasLine_of_mem_autoImportLines {line : String}
    (h : line ∈ s.preamble.autoImportLines text) : HasLine (s.preambleText c text) line := by
  refine Writer.hasLine_of_mem_lines (List.mem_map_of_mem ?_)
  exact Preamble.mem_groupLines (by simp [Preamble.groups]) h

/-- **Imports can be searched for**: nothing that may stand next to a type belongs to it, and no
trigger of an import has a border. -/
structure Searchable (s : Style) : Prop where
  indent : EndsApart s.indent
  terminator : StartsApart s.terminator
  nonempty : ∀ i ∈ s.preamble.autoImports, ∀ trigger ∈ i.triggers, trigger ≠ ""
  unbordered : ∀ i ∈ s.preamble.autoImports, ∀ trigger ∈ i.triggers,
    Text.Unbordered trigger.toList

end Style

namespace Layout

variable {l : Layout} {c : Resolved} {lines : List (List Line)}

/-- **An import is made for what is written**, if one of its triggers occurs in a type or a decorator
of the class. -/
theorem exists_import_of_occurs (hs : l.style.Searchable)
    (h : c.members.mapM l.memberLines = .ok lines) {i : AutoImport}
    (hi : i ∈ l.style.preamble.autoImports) {trigger piece : String} (ht : trigger ∈ i.triggers)
    (hp : piece ∈ l.printed c) (ho : Occurs trigger piece) :
    ∃ names, l.style.preamble.autoImportLine i.path names ∈
        l.style.preamble.autoImportLines (l.assemble c lines) ∧
      ∀ name, i.name = some name → name ∈ names := by
  have hset := setApart_of_mem_printed hs.indent hs.terminator (writtenIn_parts h) hp
  have hfound : Text.containsToken (l.assemble c lines) trigger = true :=
    Text.containsToken_of_occurs (hs.nonempty i hi trigger ht)
      (hs.unbordered i hi trigger ht).not_hidesItself (ho.of_setApart hset)
  have htriggered : Preamble.triggered (l.assemble c lines) i = true :=
    List.any_eq_true.mpr ⟨trigger, ht, hfound⟩
  exact Preamble.exists_autoImportLine hi htriggered

end Layout

/-! ### Filling a format -/

namespace Text

variable {pattern value : List Char}

theorem replaceFrom_skip (pattern value front rest : List Char) :
    replaceFrom pattern value front.length (front ++ rest) = replaceFrom pattern value 0 rest := by
  induction front with
  | nil => rfl
  | cons c front ih => exact ih

theorem replaceFrom_pattern (hne : pattern ≠ []) (rest : List Char) :
    replaceFrom pattern value 0 (pattern ++ rest) = value ++ replaceFrom pattern value 0 rest := by
  obtain ⟨c, cs, rfl⟩ := List.exists_cons_of_ne_nil hne
  have hprefix : (c :: cs).isPrefixOf (c :: (cs ++ rest)) = true :=
    List.isPrefixOf_iff_prefix.mpr (List.prefix_append (c :: cs) rest)
  rw [List.cons_append, replaceFrom, if_pos hprefix]
  exact congrArg (value ++ ·) (replaceFrom_skip _ value cs rest)

/-- Where the pattern cannot start, nothing is replaced. -/
theorem replaceFrom_append {c : Char} {front : List Char} (hc : c ∉ front) (rest : List Char) :
    replaceFrom (c :: pattern) value 0 (front ++ rest) =
      front ++ replaceFrom (c :: pattern) value 0 rest := by
  induction front with
  | nil => rfl
  | cons x front ih =>
    have hx : c ≠ x := List.ne_of_not_mem_cons hc
    have hfront : c ∉ front := List.not_mem_of_not_mem_cons hc
    have hprefix : (c :: pattern).isPrefixOf (x :: (front ++ rest)) = false := by
      simp [List.isPrefixOf, hx]
    rw [List.cons_append, replaceFrom, hprefix, if_neg Bool.false_ne_true, ih hfront]
    rfl

theorem toList_hole (name : String) :
    ("\x7b" ++ name ++ "\x7d").toList = '\x7b' :: (name ++ "\x7d").toList := by simp

/-- **A hole is filled** where it stands, and what comes before it stays. -/
theorem fillNamed_hole (front name value rest : String) (hf : '\x7b' ∉ front.toList) :
    fillNamed (front ++ ("\x7b" ++ name ++ "\x7d") ++ rest) name value =
      front ++ value ++ fillNamed rest name value := by
  have hhole := toList_hole name
  unfold fillNamed replace
  generalize "\x7b" ++ name ++ "\x7d" = hole at hhole ⊢
  apply String.toList_injective
  simp only [String.toList_append, String.toList_ofList, List.append_assoc]
  rw [hhole, replaceFrom_append hf, replaceFrom_pattern (List.cons_ne_nil _ _)]

theorem fillNamed_of_not_mem {s : String} (hs : '\x7b' ∉ s.toList) (name value : String) :
    fillNamed s name value = s := by
  unfold fillNamed replace
  apply String.toList_injective
  rw [toList_hole, String.toList_ofList, ← List.append_nil s.toList, replaceFrom_append hs]
  rfl

end Text

/-! ### C++ and Python -/

/-- An import of C++ names its path. -/
theorem autoImportLine_cpp {path : String} (hp : '\x7b' ∉ path.toList) (names : List String) :
    Profile.cpp.style.preamble.autoImportLine path names = "#include <" ++ path ++ ">" := by
  have hmodule : Text.fillNamed Profile.cpp.style.preamble.autoImportFormat "module" path =
      "#include <" ++ path ++ ">" :=
    Text.fillNamed_hole "#include <" "module" path ">" (by decide)
  unfold Preamble.autoImportLine
  rw [hmodule]
  exact Text.fillNamed_of_not_mem (by simpa using hp) _ _

/-- An import of Python names its path and what is taken from there. -/
theorem autoImportLine_python {path : String} (hp : '\x7b' ∉ path.toList) (names : List String) :
    Profile.python.style.preamble.autoImportLine path names =
      "from " ++ path ++ " import " ++ ", ".intercalate names := by
  have hmodule : Text.fillNamed Profile.python.style.preamble.autoImportFormat "module" path =
      "from " ++ path ++ (" import " ++ "\x7bnames\x7d") :=
    Text.fillNamed_hole "from " "module" path " import \x7bnames\x7d" (by decide)
  have hnames : "from " ++ path ++ (" import " ++ "\x7bnames\x7d") =
      "from " ++ path ++ " import " ++ ("\x7b" ++ "names" ++ "\x7d") ++ "" := by
    simp only [String.append_assoc, String.append_empty]
    rfl
  unfold Preamble.autoImportLine
  rw [hmodule, hnames, Text.fillNamed_hole _ _ _ _ (by simpa using hp)]
  exact String.append_empty

theorem searchable_of_profile {p : Profile} (hp : p = .cpp ∨ p = .python) : p.style.Searchable := by
  rcases hp with rfl | rfl
  · exact ⟨by decide +kernel, by decide +kernel, by decide +kernel, by decide +kernel⟩
  · exact ⟨by decide +kernel, by decide +kernel, by decide +kernel, by decide +kernel⟩

/-- The paths of the imports have no holes. -/
theorem not_mem_path_of_profile {p : Profile} (hp : p = .cpp ∨ p = .python) {i : AutoImport}
    (hi : i ∈ p.style.preamble.autoImports) : '\x7b' ∉ i.path.toList := by
  have hpaths : ∀ q ∈ [Profile.cpp, Profile.python], ∀ i ∈ q.style.preamble.autoImports,
      '\x7b' ∉ i.path.toList := by decide +kernel
  exact hpaths p (by simpa using hp) i hi

namespace Converter

variable {t : Converter} {d : Decl} {c : Resolved} {file : SourceFile}

/-- **Imports are complete** for C++ and Python: if a trigger of an import occurs in what is written
for a type or a decorator of a class, then one of the import lines before the class is for the path,
and has the name if the import has one. -/
theorem imports_complete (hp : t.profile = .cpp ∨ t.profile = .python)
    (hc : t.Reaches d (.resolved c)) (h : (t.convert d).result = .ok file) {i : AutoImport}
    (hi : i ∈ t.profile.style.preamble.autoImports) {trigger piece : String}
    (ht : trigger ∈ i.triggers) (hpiece : piece ∈ (t.layout c).printed c)
    (ho : Occurs trigger piece) :
    ∃ text names line, (t.layout c).classText c = .ok text ∧
      file.text = t.profile.style.preambleText c text ++
        t.profile.style.containedText c.container text ∧
      line ∈ t.profile.style.preamble.autoImportLines text ∧
      HasLine (t.profile.style.preambleText c text) line ∧
      (t.profile = .cpp → line = "#include <" ++ i.path ++ ">") ∧
      (t.profile = .python →
        line = "from " ++ i.path ++ " import " ++ ", ".intercalate names) ∧
      ∀ name, i.name = some name → name ∈ names := by
  obtain ⟨lines, hlines, rfl⟩ := emit_ok_iff.mp (hc.emit_of_convert h)
  obtain ⟨names, hline, hnames⟩ := Layout.exists_import_of_occurs
    (searchable_of_profile hp) hlines hi ht hpiece ho
  have hpath := not_mem_path_of_profile hp hi
  have htext : (t.layout c).classText c = .ok ((t.layout c).assemble c lines) := by
    rw [Layout.classText_eq]
    exact congrArg (Except.map _) hlines
  refine ⟨_, names, _, htext, Style.fileText_eq_append _ _ _, hline,
    Style.hasLine_of_mem_autoImportLines hline, fun hcpp => ?_, fun hpython => ?_, hnames⟩
  · change t.profile.style.preamble.autoImportLine i.path names = _
    rw [hcpp]
    exact autoImportLine_cpp hpath names
  · change t.profile.style.preamble.autoImportLine i.path names = _
    rw [hpython]
    exact autoImportLine_python hpath names

/-- The converter to Python, with nothing else known. -/
def plainPython : Converter where
  profile := .python

/-- A class with a static list of amounts. -/
def ledgerDecl : Decl where
  name := "Ledger"
  special := some .sealed
  members := [{ name := "rates", isStatic := true, kind := .field { type := "decimal[]" } }]

/-- The import of amounts in Python. -/
def decimalImport : AutoImport where
  path := "decimal"
  name := some "Decimal"
  triggers := ["Decimal"]

theorem converts_ledgerDecl : ∃ c file, plainPython.Reaches ledgerDecl (.resolved c) ∧
    (plainPython.convert ledgerDecl).result = .ok file ∧
    "ClassVar[list[Decimal]]" ∈ (plainPython.layout c).printed c :=
  have hpasses : plainPython.Passes ledgerDecl _ _ _ := ⟨rfl, rfl, rfl⟩
  ⟨_, _, hpasses.reaches,
    convert_ok_iff.mpr ⟨_, _, _, hpasses, emit_ok_iff.mpr ⟨_, rfl, rfl⟩⟩, by decide +kernel⟩

theorem imports_complete_ledger :
    ∃ c file, plainPython.Reaches ledgerDecl (.resolved c) ∧
      (plainPython.convert ledgerDecl).result = .ok file ∧
      decimalImport ∈ Profile.python.style.preamble.autoImports ∧
      "ClassVar[list[Decimal]]" ∈ (plainPython.layout c).printed c ∧
      Occurs "Decimal" "ClassVar[list[Decimal]]" ∧
      ∃ text names, (plainPython.layout c).classText c = .ok text ∧
        file.text = Profile.python.style.preambleText c text ++
          Profile.python.style.containedText c.container text ∧
        "from decimal import " ++ ", ".intercalate names ∈
          Profile.python.style.preamble.autoImportLines text ∧
        HasLine (Profile.python.style.preambleText c text)
          ("from decimal import " ++ ", ".intercalate names) ∧ "Decimal" ∈ names := by
  obtain ⟨c, file, hc, hfile, hpiece⟩ := converts_ledgerDecl
  have hi : decimalImport ∈ Profile.python.style.preamble.autoImports := by decide
  have ho : Occurs "Decimal" "ClassVar[list[Decimal]]" :=
    ⟨"ClassVar[list[", "]]", by decide, by decide +kernel⟩
  obtain ⟨text, names, line, htext, hsplit, hmem, hline, -, heq, hname⟩ :=
    imports_complete (.inr rfl) hc hfile hi List.mem_cons_self hpiece ho
  have hpath : line = "from decimal import " ++ ", ".intercalate names := by
    rw [heq rfl]
    rfl
  rw [hpath] at hmem hline
  exact ⟨c, file, hc, hfile, hi, hpiece, ho, text, names, htext, hsplit, hmem, hline,
    hname "Decimal" rfl⟩

end Converter

end ClassIdiom
