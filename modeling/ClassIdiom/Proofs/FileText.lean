import ClassIdiom.Proofs.Imports
import ClassIdiom.Proofs.MemberTexts

/-! # The text of a file from the text of its class

A file is written line by line from the lines of its class. `Style.wrapped` says what comes of it
without taking the text apart: groups of lines (`Preamble.leading`), and the class, in the block of
its container if there is one. The text of the class stays as it is but for carriage returns at the
ends of lines.

* `Text.unlines_lines`: the lines of a text make up the text again, with line feeds only;
* `Writer.linesText_inner`: lines one level in are the text with a unit before each line;
* `fileText_wraps`: a file is its class, wrapped. -/

namespace ClassIdiom

/-! ### Lines of a text -/

namespace Text

/-- The lines as one text, each with an end. -/
def unlines (lines : List String) : String := String.join (lines.map (· ++ "\n"))

theorem unlines_cons (line : String) (lines : List String) :
    unlines (line :: lines) = line ++ "\n" ++ unlines lines := by
  unfold unlines
  rw [List.map_cons, String.join_cons]

theorem unlines_append (a b : List String) : unlines (a ++ b) = unlines a ++ unlines b := by
  unfold unlines
  rw [List.map_append, String.join_append]

/-- The characters with the unit before the first one of each line. -/
def indentFrom (unit : List Char) : Bool → List Char → List Char
  | _, [] => []
  | atLineStart, c :: cs =>
    if c = '\n' then c :: indentFrom unit true cs
    else (if atLineStart then unit else []) ++ c :: indentFrom unit false cs

/-- **The text one level in**: the unit stands before each line that is not empty. -/
def indented (unit s : String) : String := String.ofList (indentFrom unit.toList true s.toList)

/-- The last line has an end. -/
def Complete (cs : List Char) : Prop := ∀ c ∈ cs.getLast?, c = '\n'

variable {c : Char} {cs : List Char}

theorem Complete.tail (h : Complete (c :: cs)) : Complete cs := by
  intro x hx
  refine h x ?_
  rw [List.getLast?_cons, Option.mem_def.mp hx]
  rfl

theorem complete_append (front : String) : Complete (front ++ "\n").toList := by
  simp [Complete]

theorem linesOf_eq_nil_iff : linesOf cs = [] ↔ cs = [] := by
  fun_cases linesOf cs <;> simp

theorem not_mem_of_mem_linesOf {line : List Char} (h : line ∈ linesOf cs) : '\n' ∉ line := by
  fun_induction linesOf cs generalizing line with
  | case1 => exact nomatch h
  | case2 cs ih =>
    rcases List.mem_cons.mp h with rfl | h
    · exact List.not_mem_nil
    · exact ih h
  | case3 cs ih =>
    rcases List.mem_cons.mp h with rfl | h
    · exact List.not_mem_nil
    · exact ih h
  | case4 c cs hfeed _ hlines ih =>
    rw [List.mem_singleton.mp h]
    exact fun hmem => hfeed (List.mem_singleton.mp hmem).symm
  | case5 c cs hfeed _ l ls hlines ih =>
    rw [hlines] at ih
    rcases List.mem_cons.mp h with rfl | h
    · exact List.not_mem_cons_of_ne_of_not_mem (Ne.symm hfeed) (ih List.mem_cons_self)
    · exact ih (List.mem_cons_of_mem _ h)

/-- Where the pattern does not stand, the character stays. -/
theorem replaceFrom_cons {pattern value : List Char} (h : ¬ pattern <+: c :: cs) :
    replaceFrom pattern value 0 (c :: cs) = c :: replaceFrom pattern value 0 cs := by
  rw [replaceFrom, if_neg (mt List.isPrefixOf_iff_prefix.mp h)]

/-- The lines of a complete text make up the text, with a line feed for each end of a line. -/
theorem flatMap_linesOf (h : Complete cs) :
    (linesOf cs).flatMap (· ++ ['\n']) = replaceFrom ['\r', '\n'] ['\n'] 0 cs := by
  fun_induction linesOf cs with
  | case1 => rfl
  | case2 cs ih =>
    rw [List.flatMap_cons, ih h.tail, replaceFrom_cons (by simp)]
    rfl
  | case3 cs ih =>
    rw [List.flatMap_cons, ih h.tail.tail]
    exact (replaceFrom_pattern (by simp) cs).symm
  | case4 c cs hfeed hreturn hlines ih =>
    -- A complete text has no last line without an end.
    obtain rfl := linesOf_eq_nil_iff.mp hlines
    exact absurd (h c rfl) hfeed
  | case5 c cs hfeed hreturn l ls hlines ih =>
    have hpair : ¬ ['\r', '\n'] <+: c :: cs := by
      rintro ⟨rest, hrest⟩
      obtain ⟨hc, hcs⟩ := List.cons.inj hrest
      exact hreturn rest hc.symm hcs.symm
    rw [replaceFrom_cons hpair, ← ih h.tail, hlines]
    rfl

/-- **The lines of a complete text** make up the text, without the carriage returns at the ends. -/
theorem unlines_lines {text : String} (h : Complete text.toList) :
    unlines (lines text) = replace "\r\n" "\n" text := by
  apply String.toList_injective
  unfold unlines lines replace
  rw [String.toList_ofList]
  refine Eq.trans ?_ (flatMap_linesOf h)
  simp [List.flatMap_map, Function.comp_def]

theorem not_mem_of_mem_lines {text line : String} (h : line ∈ lines text) :
    '\n' ∉ line.toList := by
  obtain ⟨cs, hcs, rfl⟩ := List.mem_map.mp h
  rw [String.toList_ofList]
  exact not_mem_of_mem_linesOf hcs

theorem replaceFrom_of_absent {pattern value : List Char} (h : ¬ pattern <:+: cs) :
    replaceFrom pattern value 0 cs = cs := by
  induction cs with
  | nil => rfl
  | cons c cs ih =>
    have hhere : ¬ pattern <+: c :: cs := fun hp => h hp.isInfix
    have hlater : ¬ pattern <:+: cs := fun hi => h (hi.trans (List.suffix_cons c cs).isInfix)
    rw [replaceFrom_cons hhere, ih hlater]

/-- A text without the pattern stays as it is. -/
theorem replace_of_absent {pattern value text : String}
    (h : ¬ pattern.toList <:+: text.toList) : replace pattern value text = text := by
  unfold replace
  rw [replaceFrom_of_absent h, String.ofList_toList]

/-! ### Indentation -/

theorem indentFrom_within (unit : List Char) {line : List Char} (h : '\n' ∉ line)
    (rest : List Char) :
    indentFrom unit false (line ++ '\n' :: rest) = line ++ '\n' :: indentFrom unit true rest := by
  induction line with
  | nil => rfl
  | cons c line ih =>
    have hc : c ≠ '\n' := Ne.symm (List.ne_of_not_mem_cons h)
    rw [List.cons_append, indentFrom, if_neg hc, ih (List.not_mem_of_not_mem_cons h)]
    rfl

theorem indentFrom_line (unit : List Char) {line : List Char} (h : '\n' ∉ line)
    (rest : List Char) :
    indentFrom unit true (line ++ '\n' :: rest) =
      (if line = [] then [] else unit ++ line) ++ '\n' :: indentFrom unit true rest := by
  cases line with
  | nil => rfl
  | cons c line =>
    have hc : c ≠ '\n' := Ne.symm (List.ne_of_not_mem_cons h)
    rw [List.cons_append, indentFrom, if_neg hc,
      indentFrom_within unit (List.not_mem_of_not_mem_cons h), if_neg (List.cons_ne_nil c line)]
    simp

/-- A line that is not empty is written behind the unit. -/
theorem indented_line (unit : String) {line : String} (h : '\n' ∉ line.toList) (rest : String) :
    indented unit (line ++ "\n" ++ rest) =
      (if line = "" then "" else unit ++ line) ++ "\n" ++ indented unit rest := by
  have hchars : (line ++ "\n" ++ rest).toList = line.toList ++ '\n' :: rest.toList := by simp
  apply String.toList_injective
  unfold indented
  rw [hchars, indentFrom_line unit.toList h]
  by_cases hempty : line = "" <;> simp [hempty]

end Text

namespace Writer

theorem linesText_flush (unit : String) (texts : List String) :
    linesText unit 0 (Style.flush texts) = Text.unlines texts := by
  unfold linesText Style.flush Text.unlines
  rw [List.map_map]
  exact congrArg String.join (List.map_congr_left fun text _ => written_flush unit text)

/-- **Lines one level in** are the text of the lines with a unit before each line. -/
theorem linesText_inner (unit : String) {texts : List String}
    (h : ∀ text ∈ texts, '\n' ∉ text.toList) :
    linesText unit 0 (Style.inner texts) = Text.indented unit (Text.unlines texts) := by
  induction texts with
  | nil => rfl
  | cons text texts ih =>
    have htext : '\n' ∉ text.toList := h text List.mem_cons_self
    have hwritten : written unit 0 ⟨1, text⟩ =
        (if text = "" then "" else unit ++ text) ++ "\n" := by
      simp [written, indentation]
    change linesText unit 0 (⟨1, text⟩ :: Style.inner texts) = _
    rw [linesText_cons, hwritten, ih fun x hx => h x (List.mem_cons_of_mem _ hx),
      Text.unlines_cons, Text.indented_line unit htext]

end Writer

/-! ### Groups -/

namespace OrderedSet

variable {α : Type} [DecidableEq α]

theorem toList_insertAll_eq (s : OrderedSet α) (l : List α) :
    (s.insertAll l).toList = s.toList ++ (l.filter (· ∉ s.toList)).eraseDups := by
  induction l generalizing s with
  | nil => simp [insertAll]
  | cons a l ih =>
    change ((s.insert a).insertAll l).toList = _
    rw [ih]
    unfold insert
    split
    · next hold => simp [hold]
    · next hnew =>
      -- The entry joins the set, so that what follows leaves it out as well.
      have hfilter : (l.filter (· ∉ s.toList)).filter (fun b => !b == a) =
          l.filter (· ∉ s.toList ++ [a]) := by
        rw [List.filter_filter]
        refine List.filter_congr fun b _ => ?_
        rw [Bool.eq_iff_iff]
        simp [and_comm]
      rw [List.filter_cons_of_pos (by simpa using hnew), List.eraseDups_cons, hfilter]
      exact List.append_assoc _ _ _

/-- The elements of a list, each at its first place. -/
theorem toList_ofList_eq (l : List α) : (ofList l).toList = l.eraseDups := by
  rw [ofList, toList_insertAll_eq]
  simp [empty]

end OrderedSet

namespace Preamble

/-- **The text of a group**, with an empty line behind it. There is none for an empty group. -/
def groupText (group : List String) : String :=
  if group = [] then "" else Text.unlines group ++ "\n"

theorem unlines_groupLines (groups : List (List String)) :
    Text.unlines (groupLines groups) = String.join (groups.map groupText) := by
  induction groups with
  | nil => rfl
  | cons group groups ih =>
    rw [List.map_cons, String.join_cons, ← ih]
    cases group with
    | nil => exact String.empty_append.symm
    | cons line group =>
      change Text.unlines ((line :: group) ++ [""] ++ groupLines groups) = _
      rw [Text.unlines_append, Text.unlines_append]
      rfl

/-- **The statement of a container**: its path in the format of the target, if there is a container
and the target has statements for containers. -/
def containerStatement (p : Preamble) (container : Option String) : List String :=
  match container with
  | none => []
  | some path =>
    match p.container with
    | .statement format separator =>
      [Text.fill format (Text.replace "." separator (Text.trim path))]
    | .block _ _ => []
    | .omitted => []

theorem containerLines_eq (p : Preamble) (container : Option String) :
    p.containerLines container = p.containerStatement container := by
  unfold containerLines containerStatement
  cases container with
  | none => rfl
  | some path => cases p.container <;> rfl

/-- **The declared imports**: their paths in the format of the target, each at its first place. Blank
ones are left out. -/
def declaredImports (p : Preamble) (imports : List String) : List String :=
  let paths := imports.map fun i => Text.replace "." p.importSeparator (Text.trim i)
  (paths.filter (· ≠ "")).eraseDups.map (Text.fill p.importFormat)

theorem importLines_eq (p : Preamble) (imports : List String) :
    p.importLines imports = p.declaredImports imports := by
  unfold importLines declaredImports
  simp only [OrderedSet.toList_ofList_eq]

/-- **What comes before a class**: the header, the statement of the container, the imports that the
text of the class asks for, and those of the declaration. -/
def leading (p : Preamble) (c : Resolved) (text : String) : List (List String) :=
  [p.header, p.containerStatement c.container, p.autoImportLines text, p.declaredImports c.imports]

theorem groups_eq_leading (p : Preamble) (c : Resolved) (text : String) :
    p.groups c text = p.leading c text := by
  unfold groups leading
  rw [containerLines_eq, importLines_eq]

end Preamble

/-! ### Wrapping -/

namespace Style

/-- The container of a class is written as a block. -/
def HasBlock (s : Style) (container : Option String) : Prop :=
  container ≠ none ∧ ∃ format separator, s.preamble.container = .block format separator

/-- **A text in the block of its container**, if there is one: between braces, or one level in. -/
def framed (s : Style) (container : Option String) (text : String) : String :=
  match container, s.preamble.container with
  | some path, .block format separator =>
    let opening := Text.fill format (Text.replace "." separator (Text.trim path))
    match s.blocks with
    | .braces => opening ++ "\n\x7b\n" ++ text ++ "\x7d\n"
    | .indented _ => opening ++ ":\n" ++ Text.indented s.indent text
  | _, _ => text

/-- **The text of a class, wrapped**: the groups of lines before it, and the text with line feeds
only, in the block of its container. -/
def wrapped (s : Style) (c : Resolved) (text : String) : String :=
  String.join ((s.preamble.leading c text).map Preamble.groupText) ++
    s.framed c.container (Text.replace "\r\n" "\n" text)

variable {s : Style} {text : String}

theorem preambleText_eq (s : Style) (c : Resolved) (text : String) :
    s.preambleText c text = String.join ((s.preamble.leading c text).map Preamble.groupText) := by
  unfold preambleText
  rw [Writer.text_putLines_new, Writer.linesText_flush, Preamble.unlines_groupLines,
    Preamble.groups_eq_leading]

theorem containedText_eq (container : Option String) (h : Text.Complete text.toList) :
    s.containedText container text = s.framed container (Text.replace "\r\n" "\n" text) := by
  unfold containedText
  rw [Writer.text_putLines_new, ← Text.unlines_lines h]
  unfold containedLines framed
  cases container with
  | none => exact Writer.linesText_flush _ _
  | some path =>
    cases s.preamble.container with
    | omitted => exact Writer.linesText_flush _ _
    | statement format separator => exact Writer.linesText_flush _ _
    | block format separator =>
      cases s.blocks with
      | braces =>
        have hopening (opening : String) :
            Text.unlines [opening, "\x7b"] = opening ++ "\n\x7b\n" := by
          simp [Text.unlines, String.append_assoc]
        simp only [Writer.linesText_flush, Text.unlines_append, hopening]
        rfl
      | indented placeholder =>
        have hopening (opening : String) : Text.unlines [opening ++ ":"] = opening ++ ":\n" := by
          simp [Text.unlines, String.append_assoc]
        simp only [Writer.linesText_append, Writer.linesText_flush, hopening,
          Writer.linesText_inner _ fun _ => Text.not_mem_of_mem_lines]
        rfl

theorem fileText_eq_wrapped (c : Resolved) (h : Text.Complete text.toList) :
    s.fileText c text = s.wrapped c text := by
  rw [fileText_eq_append, preambleText_eq, containedText_eq _ h]
  rfl

/-- Without groups and a block only the line ends can change. -/
theorem wrapped_of_bare {c : Resolved} (hgroups : ∀ group ∈ s.preamble.leading c text, group = [])
    (hblock : ¬ s.HasBlock c.container) :
    s.wrapped c text = Text.replace "\r\n" "\n" text := by
  have hempty : (s.preamble.leading c text).map Preamble.groupText =
      (s.preamble.leading c text).map fun _ => "" :=
    List.map_congr_left fun group hgroup => if_pos (hgroups group hgroup)
  have hframed : s.framed c.container (Text.replace "\r\n" "\n" text) =
      Text.replace "\r\n" "\n" text := by
    unfold framed
    split
    · next path format separator hpath hstyle =>
      exact absurd ⟨by simp [hpath], format, separator, hstyle⟩ hblock
    · rfl
  rw [wrapped, hempty, hframed]
  exact String.empty_append

theorem containedLines_ne_nil (container : Option String) (h : text ≠ "") :
    s.containedLines container text ≠ [] := by
  have hlines : Text.lines text ≠ [] := by
    simpa [Text.lines, Text.linesOf_eq_nil_iff] using h
  unfold containedLines
  split
  · split <;> simp [flush]
  · simpa [flush] using hlines

end Style

namespace Layout

variable {l : Layout} {c : Resolved} {text : String}

theorem headLines_ne_nil (l : Layout) (c : Resolved) : l.headLines c ≠ [] := by
  unfold headLines
  cases l.style.blocks <;> simp [Style.flush]

/-- **The text of a class** ends with the end of a line. -/
theorem exists_classText_eq_append (h : l.classText c = .ok text) :
    ∃ rest, text = rest ++ "\n" := by
  obtain ⟨lines, -, rfl⟩ := classText_ok_iff.mp h
  rw [assemble_eq, Writer.text_putLines_new]
  refine Writer.exists_linesText_eq_append _ _ ?_
  simp [headLines_ne_nil]

/-- **A file is its class, wrapped**, and ends with the end of a line. If nothing comes before the
class and there is no block around it, the file is the class, unless a line of the class ends with a
carriage return. -/
theorem fileText_wraps (h : l.classText c = .ok text) :
    l.fileText c = .ok (l.style.wrapped c text) ∧
      (∃ rest, l.style.wrapped c text = rest ++ "\n") ∧
      ((∀ group ∈ l.style.preamble.leading c text, group = []) →
        ¬ l.style.HasBlock c.container → ¬ "\r\n".toList <:+: text.toList →
          l.fileText c = .ok text) := by
  obtain ⟨rest, rfl⟩ := exists_classText_eq_append h
  have hwrapped := Style.fileText_eq_wrapped (s := l.style) c (Text.complete_append rest)
  have hfile : l.fileText c = .ok (l.style.wrapped c (rest ++ "\n")) := by
    rw [← hwrapped, fileText, h]
    rfl
  refine ⟨hfile, ?_, fun hgroups hblock habsent => ?_⟩
  · rw [← hwrapped, Style.fileText, Writer.text_putLines_new]
    refine Writer.exists_linesText_eq_append _ _ (List.append_ne_nil_of_right_ne_nil _ ?_)
    exact Style.containedLines_ne_nil _ (by simp)
  · rw [hfile, Style.wrapped_of_bare hgroups hblock, Text.replace_of_absent habsent]

/-- A class in a container, with an import. A statement ends with a carriage return. -/
def storedTrack : Resolved :=
  { track with
    container := some "media"
    imports := ["lib.core"]
    members := [trackMethod "id" "string" "go();\r"] }

/-- The text of the class in the container. -/
def storedText : String :=
  "class Track\n\x7b\npublic:\n    std::string id()\n    \x7b\n        go();\r\n    \x7d\n\x7d;\n"

/-- The text of its file. -/
def storedFile : String :=
  "#pragma once\n\n" ++ "#include <string>\n\n" ++ "#include \"lib/core.hpp\"\n\n" ++
    "namespace media\n\x7b\n" ++
    "class Track\n\x7b\npublic:\n    std::string id()\n    \x7b\n        go();\n    \x7d\n\x7d;\n" ++
    "\x7d\n"

/-- A class in no container. -/
def bareTrack : Resolved := { track with members := [trackField "length" "int"] }

/-- The layout of a class in Java that has no name yet. -/
def javaLayout : Layout := ⟨Profile.java.style, TypeNames.of Profile.java [], ""⟩

/-- The text of the class in no container, which is that of its file as well. -/
def bareText : String := "public class Track\n\x7b\n    private int length;\n\x7d\n"

/-- The class in a container, with an import that is declared twice and a blank one. -/
def packedTrack : Resolved :=
  { bareTrack with container := some " media.audio", imports := ["lib.core", " ", "lib.core "] }

/-- The text of its file. The text of the class is the same. -/
def packedFile : String := "package media.audio;\n\n" ++ "import lib.core.*;\n\n" ++ bareText

theorem fileText_wraps_track :
    (cppLayout.classText storedTrack = .ok storedText ∧
        cppLayout.fileText storedTrack = .ok storedFile ∧ ∃ rest, storedFile = rest ++ "\n") ∧
      (javaLayout.classText packedTrack = .ok bareText ∧
        javaLayout.fileText packedTrack = .ok packedFile) ∧
      javaLayout.classText bareTrack = .ok bareText ∧
      javaLayout.fileText bareTrack = .ok bareText := by
  have hstored : cppLayout.classText storedTrack = .ok storedText := by decide +kernel
  have hwrapped : cppLayout.style.wrapped storedTrack storedText = storedFile := by decide +kernel
  obtain ⟨hfile, hend, -⟩ := fileText_wraps hstored
  rw [hwrapped] at hfile hend
  have hpacked : javaLayout.classText packedTrack = .ok bareText := by decide +kernel
  have hpackage : javaLayout.style.wrapped packedTrack bareText = packedFile := by decide +kernel
  obtain ⟨hpackedFile, -, -⟩ := fileText_wraps hpacked
  rw [hpackage] at hpackedFile
  have hbare : javaLayout.classText bareTrack = .ok bareText := by decide +kernel
  have hgroups : ∀ group ∈ javaLayout.style.preamble.leading bareTrack bareText, group = [] := by
    decide +kernel
  exact ⟨⟨hstored, hfile, hend⟩, ⟨hpacked, hpackedFile⟩, hbare,
    (fileText_wraps hbare).2.2 hgroups (fun h => h.1 rfl) (by decide +kernel)⟩

end Layout

end ClassIdiom
