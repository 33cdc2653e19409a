import ClassIdiom.Proofs.FileRows

/-! # Writing call by call

A writer fixes the indentation of a line only with the first text of the line that is not empty.
Until then empty texts may be written and the level may change. A `Ledger` decides nothing: it
records line by line which texts were written and at which levels, and `lineText` says afterwards
what a recorded line looks like. The writer follows the ledger: `Follows` links its text, its level
and its mark for the start of a line to the lines recorded so far.

* `Follows.call`, `Follows.run`: each call keeps the relation, and so does each run;
* `rows_run`: the rows of what is written are the lines of the ledger. -/

namespace ClassIdiom

namespace Writer

/-- A call of a writer. -/
inductive Call where
  | write (s : String)
  | line (s : String)
  | newline
  | indent
  | dedent
deriving DecidableEq, Repr

namespace Call

/-- The text that a call writes. -/
def text? : Call → Option String
  | write s | line s => some s
  | newline | indent | dedent => none

/-- The call ends a line. -/
def endsLine : Call → Bool
  | line _ | newline => true
  | write _ | indent | dedent => false

end Call

/-- Carries out a call. -/
def call (w : Writer) : Call → Writer
  | .write s => w.write s
  | .line s => w.line s
  | .newline => w.newline
  | .indent => w.indent
  | .dedent => w.dedent

/-- **Carries out calls** one after the other. -/
def run (w : Writer) (calls : List Call) : Writer := calls.foldl call w

end Writer

open Writer (Call)

/-! ### What is recorded -/

/-- A text, and the level at which it was written. -/
structure Entry where
  level : Int
  text : String
deriving DecidableEq, Repr

namespace Entry

/-- Nothing but empty texts were written. -/
def Blank (entries : List Entry) : Prop := ∀ e ∈ entries, e.text = ""

instance (entries : List Entry) : Decidable (Blank entries) := by unfold Blank; infer_instance

/-- **A line as it has to look**: empty if nothing but empty texts were written, and else all the
texts behind the indentation for the level of the first one that is not empty. -/
def lineText (unit : String) (entries : List Entry) : String :=
  match entries.find? (·.text ≠ "") with
  | none => ""
  | some first =>
    Writer.indentation unit first.level.toNat ++ String.join (entries.map (·.text))

variable {unit : String} {entries : List Entry} {e : Entry}

theorem find?_eq_none_iff : entries.find? (·.text ≠ "") = none ↔ Blank entries := by
  simp [Blank]

theorem lineText_of_blank (h : Blank entries) : lineText unit entries = "" := by
  unfold lineText
  rw [find?_eq_none_iff.mpr h]

theorem join_of_blank (h : Blank entries) : String.join (entries.map (·.text)) = "" := by
  induction entries with
  | nil => rfl
  | cons a entries ih =>
    rw [List.map_cons, String.join_cons, h a List.mem_cons_self,
      ih fun x hx => h x (List.mem_cons_of_mem _ hx), String.empty_append]

theorem join_append_singleton :
    String.join ((entries ++ [e]).map (·.text)) = String.join (entries.map (·.text)) ++ e.text := by
  rw [List.map_append, String.join_append]
  simp

/-- The first text that is not empty brings the indentation with it. -/
theorem lineText_start (h : Blank entries) (he : e.text ≠ "") :
    lineText unit (entries ++ [e]) = Writer.indentation unit e.level.toNat ++ e.text := by
  have hfirst : (entries ++ [e]).find? (·.text ≠ "") = some e := by
    rw [List.find?_append, find?_eq_none_iff.mpr h]
    simp [he]
  unfold lineText
  rw [hfirst, join_append_singleton, join_of_blank h, String.empty_append]

/-- Any further text comes as it is. -/
theorem lineText_within (h : ¬ Blank entries) :
    lineText unit (entries ++ [e]) = lineText unit entries ++ e.text := by
  obtain ⟨first, hfirst⟩ := Option.ne_none_iff_exists'.mp (mt find?_eq_none_iff.mp h)
  unfold lineText
  rw [List.find?_append, hfirst, Option.some_or, join_append_singleton]
  exact (String.append_assoc).symm

theorem not_mem_lineText (hu : '\n' ∉ unit.toList) (h : ∀ e ∈ entries, '\n' ∉ e.text.toList) :
    '\n' ∉ (lineText unit entries).toList := by
  unfold lineText
  split
  · exact List.not_mem_nil
  · rw [String.toList_append, List.mem_append, String.toList_join, List.mem_flatMap]
    rintro (hmem | ⟨s, hs, hmem⟩)
    · exact Writer.not_mem_indentation hu _ hmem
    · obtain ⟨e, he, rfl⟩ := List.mem_map.mp hs
      exact h e he hmem

end Entry

/-- **A record of calls**: the lines that have ended, the line that has not, and the level. -/
structure Ledger where
  ended : List (List Entry) := []
  current : List Entry := []
  level : Int := 0
deriving DecidableEq, Repr

namespace Ledger

/-- Records a text. -/
def write (l : Ledger) (s : String) : Ledger := { l with current := l.current ++ [⟨l.level, s⟩] }

/-- Records the end of a line. -/
def newline (l : Ledger) : Ledger := { l with ended := l.ended ++ [l.current], current := [] }

/-- Records a call. A level is left only if there is one. -/
def call (l : Ledger) : Call → Ledger
  | .write s => l.write s
  | .line s => (l.write s).newline
  | .newline => l.newline
  | .indent => { l with level := l.level + 1 }
  | .dedent => { l with level := if l.level = 0 then 0 else l.level - 1 }

/-- The record of calls one after the other. -/
def ofCalls (calls : List Call) : Ledger := calls.foldl call {}

/-- All lines, the last one of which has not ended. -/
def lines (l : Ledger) : List (List Entry) := l.ended ++ [l.current]

/-- All that is recorded satisfies a property of texts. -/
def Records (P : String → Prop) (l : Ledger) : Prop := ∀ entries ∈ l.lines, ∀ e ∈ entries, P e.text

variable {l : Ledger} {P : String → Prop}

theorem Records.write (h : l.Records P) {s : String} (hs : P s) : (l.write s).Records P := by
  intro entries hentries e he
  rcases List.mem_append.mp hentries with hended | hcurrent
  · exact h entries (List.mem_append_left _ hended) e he
  · rw [List.mem_singleton.mp hcurrent] at he
    rcases List.mem_append.mp he with he | he
    · exact h l.current (List.mem_append_right _ List.mem_cons_self) e he
    · rw [List.mem_singleton.mp he]
      exact hs

theorem Records.newline (h : l.Records P) : l.newline.Records P := by
  intro entries hentries e he
  rcases List.mem_append.mp hentries with hlines | hcurrent
  · exact h entries hlines e he
  · rw [List.mem_singleton.mp hcurrent] at he
    exact nomatch he

theorem Records.call (h : l.Records P) {c : Call} (hc : ∀ s ∈ c.text?, P s) :
    (l.call c).Records P := by
  cases c with
  | write s => exact h.write (hc s rfl)
  | line s => exact (h.write (hc s rfl)).newline
  | newline => exact h.newline
  | indent => exact h
  | dedent => exact h

/-- What is recorded was written by one of the calls. -/
theorem records_ofCalls {calls : List Call} (h : ∀ c ∈ calls, ∀ s ∈ c.text?, P s) :
    (ofCalls calls).Records P := by
  refine List.foldlRecOn calls Ledger.call ?_ fun l hl c hc => hl.call (h c hc)
  intro entries hentries e he
  rw [List.mem_singleton.mp hentries] at he
  exact nomatch he

theorem length_ended_call (l : Ledger) (c : Call) :
    (l.call c).ended.length = l.ended.length + if c.endsLine then 1 else 0 := by
  cases c <;> simp [Ledger.call, Ledger.write, Ledger.newline, Call.endsLine]

/-- Each call that ends a line adds one. -/
theorem length_ended_ofCalls (calls : List Call) :
    (ofCalls calls).ended.length = calls.countP Call.endsLine := by
  have hrun : ∀ l : Ledger, (calls.foldl Ledger.call l).ended.length =
      l.ended.length + calls.countP Call.endsLine := by
    induction calls with
    | nil => exact fun l => rfl
    | cons c calls ih =>
      intro l
      rw [List.foldl_cons, ih, length_ended_call, List.countP_cons, Nat.add_assoc,
        Nat.add_comm (List.countP _ _)]
  rw [ofCalls, hrun]
  exact Nat.zero_add _

end Ledger

/-! ### The writer follows the ledger -/

namespace Writer

open Entry (Blank lineText)

theorem unit_call (w : Writer) (c : Call) : (w.call c).unit = w.unit := by
  cases c with
  | write s => exact w.unit_write s
  | line s => exact w.unit_write s
  | newline | indent | dedent => rfl

theorem dedent_of_level_eq_zero {w : Writer} (h : w.level = 0) : w.dedent = w := by
  obtain ⟨text, unit, level, atLineStart⟩ := w
  obtain rfl : level = 0 := h
  rfl

/-- **The writer follows the ledger.** Its text is made of the lines that have ended and the one
that has not, and it is at the start of a line as long as only empty texts were written on it. -/
structure Follows (w : Writer) (l : Ledger) : Prop where
  text : w.text = Text.unlines (l.ended.map (lineText w.unit)) ++ lineText w.unit l.current
  level : (w.level : Int) = l.level
  atLineStart : w.atLineStart = true ↔ Blank l.current

namespace Follows

variable {w : Writer} {l : Ledger}

theorem write (h : Follows w l) (s : String) : Follows (w.write s) (l.write s) := by
  have hlevel : l.level.toNat = w.level := by
    rw [← h.level]
    rfl
  have hblank : Blank (l.current ++ [⟨l.level, s⟩]) ↔ Blank l.current ∧ s = "" := by
    simp [Blank, or_imp, forall_and]
  unfold Ledger.write
  cases hstart : w.atLineStart with
  | false =>
    -- The line has its indentation, and the text goes behind the others.
    have hwithin : ¬ Blank l.current := by
      rw [← h.atLineStart, hstart]
      exact Bool.false_ne_true
    rw [write_within hstart]
    refine ⟨?_, h.level, ?_⟩
    · simp only [Entry.lineText_within hwithin]
      rw [h.text, String.append_assoc]
    · rw [hblank]
      simp [hstart, hwithin]
  | true =>
    have hcurrent := h.atLineStart.mp hstart
    by_cases hs : s = ""
    · subst hs
      have hstill := hblank.mpr ⟨hcurrent, rfl⟩
      rw [write_empty]
      refine ⟨?_, h.level, iff_of_true hstart hstill⟩
      rw [h.text, Entry.lineText_of_blank hcurrent, Entry.lineText_of_blank hstill]
    · -- The indentation is due now, and the level is the one that is recorded with the text.
      rw [write_start hstart hs]
      refine ⟨?_, h.level, ?_⟩
      · simp only [Entry.lineText_start (e := ⟨l.level, s⟩) hcurrent hs]
        rw [hlevel, h.text, Entry.lineText_of_blank hcurrent, String.append_empty]
      · rw [hblank]
        simp [hs]

theorem newline (h : Follows w l) : Follows w.newline l.newline := by
  refine ⟨?_, h.level, ?_⟩
  · show w.text ++ "\n" =
      Text.unlines ((l.ended ++ [l.current]).map (lineText w.unit)) ++ lineText w.unit []
    have hlast : Text.unlines [lineText w.unit l.current] = lineText w.unit l.current ++ "\n" :=
      (Text.unlines_cons _ []).trans String.append_empty
    rw [h.text, List.map_append, Text.unlines_append, List.map_singleton, hlast,
      String.append_assoc]
    exact String.append_empty.symm
  · exact iff_of_true rfl fun _ he => nomatch he

/-- **Each call keeps the relation.** -/
theorem call (h : Follows w l) (c : Call) : Follows (w.call c) (l.call c) := by
  cases c with
  | write s => exact h.write s
  | line s => exact (h.write s).newline
  | newline => exact h.newline
  | indent =>
    refine ⟨h.text, ?_, h.atLineStart⟩
    show ((w.level + 1 : Nat) : Int) = l.level + 1
    have := h.level
    omega
  | dedent =>
    refine ⟨h.text, ?_, h.atLineStart⟩
    show ((w.level - 1 : Nat) : Int) = if l.level = 0 then 0 else l.level - 1
    have := h.level
    split <;> omega

/-- **Each run keeps the relation.** -/
theorem run (h : Follows w l) (calls : List Call) :
    Follows (w.run calls) (calls.foldl Ledger.call l) := by
  induction calls generalizing w l with
  | nil => exact h
  | cons c calls ih => exact ih (h.call c)

/-- The rows of the text are the lines of the ledger, if there are no other line feeds. -/
theorem rows_eq (h : Follows w l) (hu : '\n' ∉ w.unit.toList)
    (hl : l.Records fun s => '\n' ∉ s.toList) :
    Text.rows w.text = l.lines.map (lineText w.unit) := by
  have hlines : ∀ entries ∈ l.lines, '\n' ∉ (lineText w.unit entries).toList :=
    fun entries hentries => Entry.not_mem_lineText hu (hl entries hentries)
  have hended : ∀ line ∈ l.ended.map (lineText w.unit), '\n' ∉ line.toList := by
    intro line hline
    obtain ⟨entries, hentries, rfl⟩ := List.mem_map.mp hline
    exact hlines entries (List.mem_append_left _ hentries)
  have hcurrent := hlines l.current (List.mem_append_right _ List.mem_cons_self)
  rw [h.text, Text.rows_unlines_append hended, Text.rows_of_not_mem hcurrent, Ledger.lines,
    List.map_append, List.map_singleton]

end Follows

theorem follows_new (unit : String) : Follows (new unit) {} :=
  ⟨rfl, rfl, iff_of_true rfl fun _ he => nomatch he⟩

theorem unit_run (w : Writer) (calls : List Call) : (w.run calls).unit = w.unit :=
  List.foldlRecOn (motive := fun w' => w'.unit = w.unit) calls call rfl
    fun w' hw' c _ => (w'.unit_call c).trans hw'

/-- **What is written call by call.** If neither the unit nor a text has a line feed, the rows of
the text are the lines of the ledger, one for each call that ends a line and one for what follows
the last such call. The levels are those of the ledger; they are never negative, and to leave a
level where there is none changes nothing. -/
theorem rows_run {unit : String} (hu : '\n' ∉ unit.toList) {calls : List Call}
    (hcalls : ∀ c ∈ calls, ∀ s ∈ c.text?, '\n' ∉ s.toList) :
    Text.rows ((new unit).run calls).text = (Ledger.ofCalls calls).lines.map (lineText unit) ∧
    (Ledger.ofCalls calls).lines.length = calls.countP Call.endsLine + 1 ∧
    (((new unit).run calls).level : Int) = (Ledger.ofCalls calls).level ∧
    0 ≤ (Ledger.ofCalls calls).level ∧
    ((Ledger.ofCalls calls).level = 0 →
      (new unit).run (calls ++ [.dedent]) = (new unit).run calls) := by
  have hfollows : Follows ((new unit).run calls) (Ledger.ofCalls calls) :=
    (follows_new unit).run calls
  have hunit : ((new unit).run calls).unit = unit := unit_run (new unit) calls
  have hrows := hfollows.rows_eq (by rwa [hunit]) (Ledger.records_ofCalls hcalls)
  rw [hunit] at hrows
  have hlevel := hfollows.level
  refine ⟨hrows, ?_, hlevel, by omega, fun hzero => ?_⟩
  · rw [Ledger.lines, List.length_append, List.length_singleton, Ledger.length_ended_ofCalls]
  · have hnone : ((new unit).run calls).level = 0 := by omega
    have hstep : (new unit).run (calls ++ [.dedent]) = ((new unit).run calls).dedent := by
      rw [run, List.foldl_append]
      rfl
    rw [hstep, dedent_of_level_eq_zero hnone]

/-- Calls with an empty text before the level changes, empty lines within a level, a level left too
often, and a last line without an end. -/
def draftCalls : List Call :=
  [.dedent, .line "class A", .indent, .write "", .indent, .write "int x", .dedent, .write ";",
    .newline, .newline, .line "", .dedent, .dedent, .write "\x7d"]

theorem rows_run_draft :
    '\n' ∉ "  ".toList ∧ (∀ c ∈ draftCalls, ∀ s ∈ c.text?, '\n' ∉ s.toList) ∧
      Text.rows ((new "  ").run draftCalls).text = ["class A", "    int x;", "", "", "\x7d"] ∧
      (new "  ").run (draftCalls ++ [.dedent]) = (new "  ").run draftCalls := by
  have hunit : '\n' ∉ "  ".toList := by decide
  have hcalls : ∀ c ∈ draftCalls, ∀ s ∈ c.text?, '\n' ∉ s.toList := by decide
  have hlines : (Ledger.ofCalls draftCalls).lines.map (lineText "  ") =
      ["class A", "    int x;", "", "", "\x7d"] := by decide
  obtain ⟨hrows, -, -, -, hdedent⟩ := rows_run hunit hcalls
  exact ⟨hunit, hcalls, hrows.trans hlines, hdedent (by decide)⟩

end Writer

end ClassIdiom
