import Mathlib.Data.List.Basic
import ClassIdiom.Json.Token

/-! # Tokens are read back

Tokens are written one after the other with nothing in between, and only some sequences can be told
apart again: `1` and `2` come out as `12`. `Legible` says which ones can: no bare word follows
another, and numbers are spelled as numbers. `scan_flatMap_spell`: the scanner reads them back.

While a bare word is read the scanner does not know that it is over; the next token tells it. So the
invariant of a run is not what the scanner has stored but what `Scan.finish` would give if the text
ended here. -/

namespace ClassIdiom.Json

/-! ### Characters of numbers -/

namespace Numeral

/-- The character can stand in a number. -/
def isNumeralChar (c : Char) : Bool :=
  c.isDigit || c = '.' || c = 'e' || c = 'E' || c = '+' || c = '-'

/-- All that was read before the rest are characters of numbers. -/
def Took (cs rest : List Char) : Prop :=
  ∃ front, cs = front ++ rest ∧ ∀ c ∈ front, isNumeralChar c = true

theorem Took.refl (cs : List Char) : Took cs cs := ⟨[], rfl, by simp⟩

theorem Took.trans {a b c : List Char} (hab : Took a b) (hbc : Took b c) : Took a c := by
  obtain ⟨x, rfl, hx⟩ := hab
  obtain ⟨y, rfl, hy⟩ := hbc
  refine ⟨x ++ y, by simp, fun d hd => ?_⟩
  rcases List.mem_append.mp hd with hd | hd
  · exact hx d hd
  · exact hy d hd

theorem Took.cons {c : Char} {cs rest : List Char} (hc : isNumeralChar c = true)
    (h : Took cs rest) : Took (c :: cs) rest :=
  Took.trans ⟨[c], rfl, by simpa using hc⟩ h

theorem took_digits (cs : List Char) : Took cs (cs.dropWhile Char.isDigit) := by
  refine ⟨cs.takeWhile Char.isDigit, List.takeWhile_append_dropWhile.symm, fun c hc => ?_⟩
  have hdigit : c.isDigit = true := List.all_eq_true.mp List.all_takeWhile c hc
  simp [isNumeralChar, hdigit]

theorem took_readFraction {cs rest : List Char} {f : Option (List Char)}
    (h : readFraction cs = some (f, rest)) : Took cs rest := by
  unfold readFraction at h
  split at h
  · next cs =>
    simp only [Option.ite_none_left_eq_some, Option.some.injEq, Prod.mk.injEq] at h
    obtain ⟨-, -, rfl⟩ := h
    exact (took_digits cs).cons (by decide)
  · obtain ⟨-, rfl⟩ := Prod.mk.inj (Option.some.inj h)
    exact .refl _

theorem took_readPower {negative : Bool} {cs rest : List Char} {e : Option Int}
    (h : readPower negative cs = some (e, rest)) : Took cs rest := by
  unfold readPower at h
  simp only [Option.ite_none_left_eq_some, Option.some.injEq, Prod.mk.injEq] at h
  obtain ⟨-, -, rfl⟩ := h
  exact took_digits cs

theorem took_readExponent {cs rest : List Char} {e : Option Int}
    (h : readExponent cs = some (e, rest)) : Took cs rest := by
  unfold readExponent at h
  split at h
  · next c cs =>
    split at h
    · next hc =>
      have hmark : isNumeralChar c = true := by rcases hc with rfl | rfl <;> decide
      refine Took.cons hmark ?_
      split at h
      · exact (took_readPower h).cons (by decide)
      · exact (took_readPower h).cons (by decide)
      · exact took_readPower h
    · obtain ⟨-, rfl⟩ := Prod.mk.inj (Option.some.inj h)
      exact .refl _
  · obtain ⟨-, rfl⟩ := Prod.mk.inj (Option.some.inj h)
    exact .refl _

theorem took_readUnsigned {negative : Bool} {cs : List Char} {n : Numeral}
    (h : readUnsigned negative cs = some n) : Took cs [] := by
  unfold readUnsigned at h
  simp only [Option.bind_eq_bind, Option.bind_eq_some_iff] at h
  obtain ⟨⟨f, cs₁⟩, hf, ⟨e, cs₂⟩, he, h⟩ := h
  have hempty : cs₂ = [] := by
    by_contra hne
    simp [hne] at h
  exact (took_digits cs).trans ((took_readFraction hf).trans (hempty ▸ took_readExponent he))

theorem took_read? {cs : List Char} {n : Numeral} (h : read? cs = some n) : Took cs [] := by
  unfold read? at h
  split at h
  · exact (took_readUnsigned h).cons (by decide)
  · exact took_readUnsigned h

end Numeral

theorem isNumeralChar_of_isNumber {cs : List Char} (h : isNumber cs = true) :
    ∀ c ∈ cs, Numeral.isNumeralChar c = true := by
  cases hn : Numeral.read? cs with
  | none =>
    rw [isNumber, hn] at h
    exact nomatch h
  | some n =>
    obtain ⟨front, hfront, hchars⟩ := Numeral.took_read? hn
    rw [hfront, List.append_nil]
    exact hchars

namespace Scan

variable {s : Scan} {ts : List Token} {c : Char}

theorem endsWord_iff :
    endsWord c = true ↔ c ∈ [' ', '\t', '\n', '\r', '[', ']', '\x7b', '\x7d', ',', ':', '"'] := by
  unfold endsWord isSpace punctuation?
  split <;> simp_all [or_assoc]

theorem endsWord_of_isNumeralChar (h : Numeral.isNumeralChar c = true) : endsWord c = false := by
  have hnone : [' ', '\t', '\n', '\r', '[', ']', '\x7b', '\x7d', ',', ':', '"'].all
      (!Numeral.isNumeralChar ·) = true := by decide
  by_contra hc
  rw [Bool.not_eq_false, endsWord_iff] at hc
  have hother := List.all_eq_true.mp hnone c hc
  rw [h] at hother
  exact nomatch hother

/-! ### Strings -/

theorem hexValue?_hexDigit : ∀ n < 16, hexValue? (hexDigit n) = some n := by decide

theorem foldlM_letter {letter : Char} (h : escape? letter = some c) (hu : letter ≠ 'u')
    (read : List Char) (ts : List Token) :
    ['\\', letter].foldlM step ⟨.text read, ts⟩ = some ⟨.text (c :: read), ts⟩ := by
  simp [step, h, hu]

/-- A control character is spelled by the last two digits of its code unit. -/
theorem foldlM_control (h : c.toNat < 32) (read : List Char) (ts : List Token) :
    ['\\', 'u', '0', '0', hexDigit (c.toNat / 16), hexDigit (c.toNat % 16)].foldlM step
      ⟨.text read, ts⟩ = some ⟨.text (c :: read), ts⟩ := by
  have hzero : hexValue? '0' = some 0 := by decide
  have hhigh := hexValue?_hexDigit (c.toNat / 16) (by omega)
  have hlow := hexValue?_hexDigit (c.toNat % 16) (by omega)
  have hvalue : 16 * (c.toNat / 16) + c.toNat % 16 = c.toNat := by omega
  have hunit : unitRead read none c.toNat = some (.text (c :: read)) := by
    have hnotHigh : isHigh c.toNat = false := by simp [isHigh]; omega
    have hnotLow : isLow c.toNat = false := by simp [isLow]; omega
    simp [unitRead, hnotHigh, hnotLow, Char.ofNat_toNat]
  simp [step, hzero, hhigh, hlow, hvalue, hunit]

/-- **A character inside a string** is read back from how it is written. -/
theorem foldlM_escaped (c : Char) (read : List Char) (ts : List Token) :
    (escaped c).foldlM step ⟨.text read, ts⟩ = some ⟨.text (c :: read), ts⟩ := by
  unfold escaped
  split_ifs with hquote hbackslash hfeed hreturn htab hback hform hcontrol
  · exact foldlM_letter (by rw [hquote]; rfl) (by decide) read ts
  · exact foldlM_letter (by rw [hbackslash]; rfl) (by decide) read ts
  · exact foldlM_letter (by rw [hfeed]; rfl) (by decide) read ts
  · exact foldlM_letter (by rw [hreturn]; rfl) (by decide) read ts
  · exact foldlM_letter (by rw [htab]; rfl) (by decide) read ts
  · exact foldlM_letter (by rw [hback]; rfl) (by decide) read ts
  · exact foldlM_letter (by rw [hform]; rfl) (by decide) read ts
  · exact foldlM_control hcontrol read ts
  · simp [step, hquote, hbackslash, hcontrol]

theorem foldlM_flatMap_escaped (cs read : List Char) (ts : List Token) :
    (cs.flatMap escaped).foldlM step ⟨.text read, ts⟩ =
      some ⟨.text (cs.reverse ++ read), ts⟩ := by
  induction cs generalizing read with
  | nil => rfl
  | cons c cs ih =>
    rw [List.flatMap_cons, List.foldlM_append, foldlM_escaped]
    simpa using ih (c :: read)

/-! ### Bare words -/

theorem foldlM_word {cs : List Char} (h : ∀ c ∈ cs, endsWord c = false) (read : List Char)
    (ts : List Token) :
    cs.foldlM step ⟨.word read, ts⟩ = some ⟨.word (cs.reverse ++ read), ts⟩ := by
  induction cs generalizing read with
  | nil => rfl
  | cons c cs ih =>
    obtain ⟨hc, hcs⟩ := List.forall_mem_cons.mp h
    rw [List.foldlM_cons]
    simpa [step, hc] using ih hcs (c :: read)

theorem stepBetween_of_not_endsWord (h : endsWord c = false) (ts : List Token) :
    stepBetween ts c = ⟨.word [c], ts⟩ := by
  unfold endsWord at h
  simp only [Bool.or_eq_false_iff, Option.isSome_eq_false_iff, Option.isNone_iff_eq_none,
    decide_eq_false_iff_not] at h
  obtain ⟨⟨hspace, hpunctuation⟩, hquote⟩ := h
  simp [stepBetween, hspace, hpunctuation, hquote]

end Scan

namespace Token

/-- The token is a bare word. -/
def isWord : Token → Bool
  | null | bool _ | num _ => true
  | _ => false

/-- A number is spelled as one. -/
def Readable : Token → Prop
  | num spelling => isNumber spelling.toList = true
  | _ => True

theorem wordToken?_spell {t : Token} (hw : t.isWord = true) (hr : t.Readable) :
    Scan.wordToken? t.spell = some t := by
  cases t with
  | null => decide
  | bool b => cases b <;> decide
  | num spelling =>
    -- The literals are tried first, but none of them is a number.
    have hnumber : isNumber spelling.toList = true := hr
    have hliteral : ∀ w, isNumber w = false → spelling.toList ≠ w := by
      rintro w hw rfl
      rw [hnumber] at hw
      exact nomatch hw
    have hnull := hliteral ['n', 'u', 'l', 'l'] (by decide)
    have htrue := hliteral ['t', 'r', 'u', 'e'] (by decide)
    have hfalse := hliteral ['f', 'a', 'l', 's', 'e'] (by decide)
    simp [spell, Scan.wordToken?, hnull, htrue, hfalse, hnumber]
  | _ => exact nomatch hw

theorem not_endsWord_of_mem_spell {t : Token} (hw : t.isWord = true) (hr : t.Readable) :
    ∀ c ∈ t.spell, Scan.endsWord c = false := by
  have hfixed : ∀ word : List Char, word.all (!Scan.endsWord ·) = true →
      ∀ c ∈ word, Scan.endsWord c = false := by
    intro word hword c hc
    simpa using List.all_eq_true.mp hword c hc
  cases t with
  | null => exact hfixed _ (by decide)
  | bool b => exact hfixed _ (by cases b <;> decide)
  | num spelling =>
    exact fun c hc => Scan.endsWord_of_isNumeralChar (isNumeralChar_of_isNumber hr c hc)
  | _ => exact nomatch hw

end Token

/-! ### Sequences of tokens -/

/-- **The tokens can be told apart** when they are written one after the other. -/
inductive Legible : List Token → Prop where
  | nil : Legible []
  | mark {t : Token} {ts : List Token} (kind : t.isWord = false) (rest : Legible ts) :
    Legible (t :: ts)
  | word {t : Token} {ts : List Token} (kind : t.isWord = true) (readable : t.Readable)
      (next : ∀ u ∈ ts.head?, u.isWord = false) (rest : Legible ts) : Legible (t :: ts)

namespace Scan

variable {s : Scan} {ts : List Token} {t : Token}

/-- Where the text could end, the next token starts as between tokens. -/
theorem step_of_finish {c : Char} (h : s.finish = some ts) (hc : endsWord c = true) :
    s.step c = some (stepBetween ts.reverse c) := by
  obtain ⟨mode, tokens⟩ := s
  cases mode with
  | between =>
    obtain rfl := Option.some.inj h
    simp [step]
  | word read =>
    obtain ⟨t, ht, rfl⟩ := Option.map_eq_some_iff.mp h
    simp [step, hc, ht]
  | _ => exact nomatch h

theorem foldlM_spell_word (hw : t.isWord = true) (hr : t.Readable) (ts : List Token) :
    ∃ s', t.spell.foldlM step ⟨.between, ts⟩ = some s' ∧
      s'.finish = some (t :: ts).reverse := by
  have htoken := Token.wordToken?_spell hw hr
  have hchars := Token.not_endsWord_of_mem_spell hw hr
  cases hspell : t.spell with
  | nil =>
    have hnone : wordToken? [] = none := by decide
    rw [hspell, hnone] at htoken
    exact nomatch htoken
  | cons c cs =>
    rw [hspell] at htoken hchars
    obtain ⟨hc, hcs⟩ := List.forall_mem_cons.mp hchars
    refine ⟨⟨.word (cs.reverse ++ [c]), ts⟩, ?_, by simp [finish, htoken]⟩
    rw [List.foldlM_cons, ← foldlM_word hcs, ← stepBetween_of_not_endsWord hc]
    rfl

theorem foldlM_spell_mark (h : s.finish = some ts) (hw : t.isWord = false) :
    t.spell.foldlM step s = some ⟨.between, t :: ts.reverse⟩ := by
  cases t with
  | str x =>
    have hquote : s.step '"' = some ⟨.text [], ts.reverse⟩ := step_of_finish h (by decide)
    rw [Token.spell, List.cons_append, List.foldlM_cons, hquote]
    simp only [Option.bind_eq_bind, Option.bind_some, List.foldlM_append, foldlM_flatMap_escaped]
    simp [step]
  | null => exact nomatch hw
  | bool b => exact nomatch hw
  | num x => exact nomatch hw
  | _ =>
    rw [Token.spell, List.foldlM_cons, step_of_finish h (by decide)]
    rfl

/-- **A run over the spellings of tokens** adds them to what has been read. -/
theorem foldlM_flatMap_spell {tokens : List Token} (hl : Legible tokens) (h : s.finish = some ts)
    (hfirst : ∀ t ∈ tokens.head?, t.isWord = true → s.mode = .between) :
    ((tokens.flatMap Token.spell).foldlM step s).bind finish = some (ts ++ tokens) := by
  induction hl generalizing s ts with
  | nil => simpa using h
  | @mark t tokens hw _ ih =>
    have hrest := ih (s := ⟨.between, t :: ts.reverse⟩) rfl fun _ _ _ => rfl
    rw [List.flatMap_cons, List.foldlM_append, foldlM_spell_mark h hw]
    simpa using hrest
  | @word t tokens hw hr hnext _ ih =>
    obtain ⟨mode, read⟩ := s
    obtain rfl : mode = .between := hfirst t rfl hw
    obtain rfl : read.reverse = ts := Option.some.inj h
    obtain ⟨s', hs', hfinish⟩ := foldlM_spell_word hw hr read
    -- The scanner is still inside the word, and what follows is not a word.
    have hrest := ih hfinish fun u hu hword => by
      rw [hnext u hu] at hword
      exact nomatch hword
    rw [List.flatMap_cons, List.foldlM_append, hs']
    simpa using hrest

end Scan

/-- **The tokens are read back** from their spellings. -/
theorem scan_flatMap_spell {tokens : List Token} (h : Legible tokens) :
    scan (tokens.flatMap Token.spell) = some tokens :=
  Scan.foldlM_flatMap_spell (s := Scan.start) h rfl fun _ _ _ => rfl

end ClassIdiom.Json
