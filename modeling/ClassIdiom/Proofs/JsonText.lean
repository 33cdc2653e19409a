import ClassIdiom.Json.Parser
import ClassIdiom.Proofs.JsonTokens

/-! # Values are read back

`Fits n v` says that a value can be read back where `n` more arrays and objects may be opened: it
nests no deeper, and its numbers are spelled as numbers. Its tokens can then be told apart
(`Fits.legible`) and the parser, over a stack that leaves room for them, makes the value of them
(`Position.reads_of_fits`). Together: `parse?_compress`. -/

namespace ClassIdiom.Json

/-- **The value can be read back** where the given number of arrays and objects may be opened. -/
inductive Fits : Nat → Json → Prop where
  | null {n : Nat} : Fits n .null
  | bool {n : Nat} (b : Bool) : Fits n (.bool b)
  | num {n : Nat} {spelling : String} (h : isNumber spelling.toList = true) :
    Fits n (.num spelling)
  | str {n : Nat} (s : String) : Fits n (.str s)
  | arr {n : Nat} {items : List Json} (h : ∀ v ∈ items, Fits n v) : Fits (n + 1) (.arr items)
  | obj {n : Nat} {entries : List (String × Json)} (h : ∀ e ∈ entries, Fits n e.2) :
    Fits (n + 1) (.obj entries)

/-! ### Tokens of a value -/

/-- The tokens may follow a bare word. -/
structure Continues (ts : List Token) : Prop where
  legible : Legible ts
  head : ∀ u ∈ ts.head?, u.isWord = false

theorem continues_cons {t : Token} {ts : List Token} (ht : t.isWord = false) (h : Legible ts) :
    Continues (t :: ts) where
  legible := .mark ht h
  head u hu := by
    obtain rfl := Option.some.inj hu
    exact ht

theorem continues_itemTokens {items : List Json} {rest : List Token} (hrest : Legible rest)
    (h : ∀ v ∈ items, ∀ ts, Continues ts → Legible (v.tokens ++ ts)) :
    Continues (itemTokens items ++ rest) := by
  induction items with
  | nil => exact continues_cons rfl hrest
  | cons v items ih =>
    obtain ⟨hv, hitems⟩ := List.forall_mem_cons.mp h
    simp only [itemTokens, List.cons_append, List.append_assoc]
    exact continues_cons rfl (hv _ (ih hitems))

theorem continues_entryTokens {entries : List (String × Json)} {rest : List Token}
    (hrest : Legible rest) (h : ∀ e ∈ entries, ∀ ts, Continues ts → Legible (e.2.tokens ++ ts)) :
    Continues (entryTokens entries ++ rest) := by
  induction entries with
  | nil => exact continues_cons rfl hrest
  | cons e entries ih =>
    obtain ⟨hv, hentries⟩ := List.forall_mem_cons.mp h
    obtain ⟨k, v⟩ := e
    simp only [entryTokens, List.cons_append, List.append_assoc]
    exact continues_cons rfl (.mark rfl (.mark rfl (hv _ (ih hentries))))

/-- The tokens of a value can be told apart, with anything after them but a bare word. -/
theorem Fits.legible {n : Nat} {v : Json} (h : Fits n v) {ts : List Token} (hts : Continues ts) :
    Legible (v.tokens ++ ts) := by
  induction h generalizing ts with
  | null => exact .word rfl trivial hts.head hts.legible
  | bool b => exact .word rfl trivial hts.head hts.legible
  | num hnumber => exact .word rfl hnumber hts.head hts.legible
  | str s => exact .mark rfl hts.legible
  | @arr n items _ ih =>
    cases items with
    | nil => exact .mark rfl (.mark rfl hts.legible)
    | cons v items =>
      obtain ⟨hv, hitems⟩ := List.forall_mem_cons.mp ih
      have hrest := continues_itemTokens hts.legible fun w hw ts => hitems w hw
      simp only [tokens, List.cons_append, List.append_assoc]
      exact .mark rfl (hv hrest)
  | @obj n entries _ ih =>
    cases entries with
    | nil => exact .mark rfl (.mark rfl hts.legible)
    | cons e entries =>
      obtain ⟨hv, hentries⟩ := List.forall_mem_cons.mp ih
      have hrest := continues_entryTokens hts.legible fun e he ts => hentries e he
      obtain ⟨k, v⟩ := e
      simp only [tokens, List.cons_append, List.append_assoc]
      exact .mark rfl (.mark rfl (.mark rfl (hv hrest)))

/-! ### The parser -/

namespace Position

/-- Where a value must follow over the stack, the parser makes the value of its tokens. -/
def Reads (stack : List Frame) (v : Json) : Prop :=
  ∀ rest, (v.tokens ++ rest).foldlM step (.value stack) = rest.foldlM step (.complete stack v)

theorem foldlM_itemTokens {stack : List Frame} {items : List Json}
    (h : ∀ v ∈ items, ∀ done, Reads (.array done :: stack) v) (done : List Json) (v : Json)
    (rest : List Token) :
    (itemTokens items ++ rest).foldlM step (.complete (.array done :: stack) v) =
      rest.foldlM step (.complete stack (.arr (done.reverse ++ v :: items))) := by
  induction items generalizing done v with
  | nil => simp [itemTokens, step, stepComplete]
  | cons item items ih =>
    obtain ⟨hitem, hitems⟩ := List.forall_mem_cons.mp h
    have htail := ih hitems (v :: done) item
    simp only [itemTokens, List.cons_append, List.append_assoc, List.foldlM_cons]
    simp only [step, stepComplete, Option.bind_eq_bind, Option.bind_some]
    rw [hitem, htail]
    simp

theorem foldlM_entryTokens {stack : List Frame} {entries : List (String × Json)}
    (h : ∀ e ∈ entries, ∀ done, Reads (.object done e.1 :: stack) e.2)
    (done : List (String × Json)) (k : String) (v : Json) (rest : List Token) :
    (entryTokens entries ++ rest).foldlM step (.complete (.object done k :: stack) v) =
      rest.foldlM step (.complete stack (.obj (done.reverse ++ (k, v) :: entries))) := by
  induction entries generalizing done k v with
  | nil => simp [entryTokens, step, stepComplete]
  | cons e entries ih =>
    obtain ⟨he, hentries⟩ := List.forall_mem_cons.mp h
    obtain ⟨k', v'⟩ := e
    have htail := ih hentries ((k, v) :: done) k' v'
    simp only [entryTokens, List.cons_append, List.append_assoc, List.foldlM_cons]
    simp only [step, stepComplete, Option.bind_eq_bind, Option.bind_some]
    rw [he, htail]
    simp

theorem exists_tokens_eq_cons (v : Json) : ∃ t ts, v.tokens = t :: ts ∧ t ≠ .closeArray := by
  cases v with
  | arr items => cases items <;> simp [tokens]
  | obj entries => cases entries <;> simp [tokens]
  | _ => simp [tokens]

/-- The first item of an array is read like any other: it does not start with the closing bracket.
-/
theorem foldlM_arrayStart (stack : List Frame) (v : Json) (rest : List Token) :
    (v.tokens ++ rest).foldlM step (.arrayStart stack) =
      (v.tokens ++ rest).foldlM step (.value (.array [] :: stack)) := by
  obtain ⟨t, ts, hv, ht⟩ := exists_tokens_eq_cons v
  have hstep : step (.arrayStart stack) t = step (.value (.array [] :: stack)) t := by
    cases t with
    | closeArray => exact absurd rfl ht
    | _ => rfl
  rw [hv, List.cons_append, List.foldlM_cons, List.foldlM_cons, hstep]

/-- **A value is read** from its tokens over a stack that leaves room for it. -/
theorem reads_of_fits {n : Nat} {v : Json} (h : Fits n v) {stack : List Frame}
    (hroom : stack.length + n ≤ maxDepth) : Reads stack v := by
  induction h generalizing stack with
  | null => exact fun rest => rfl
  | bool b => exact fun rest => rfl
  | num _ => exact fun rest => rfl
  | str s => exact fun rest => rfl
  | @arr n items _ ih =>
    have hopen : stack.length < maxDepth := by omega
    have hitems : ∀ v ∈ items, ∀ done, Reads (.array done :: stack) v :=
      fun v hv done => ih v hv (by rw [List.length_cons]; omega)
    intro rest
    cases items with
    | nil => simp [tokens, step, stepValue, hopen]
    | cons v items =>
      obtain ⟨hv, hothers⟩ := List.forall_mem_cons.mp hitems
      have htail := foldlM_itemTokens hothers [] v rest
      simp only [tokens, List.cons_append, List.append_assoc, List.foldlM_cons]
      simp only [step, stepValue, hopen, if_true, Option.bind_eq_bind, Option.bind_some]
      rw [foldlM_arrayStart, hv, htail]
      rfl
  | @obj n entries _ ih =>
    have hopen : stack.length < maxDepth := by omega
    have hentries : ∀ e ∈ entries, ∀ done, Reads (.object done e.1 :: stack) e.2 :=
      fun e he done => ih e he (by rw [List.length_cons]; omega)
    intro rest
    cases entries with
    | nil => simp [tokens, step, stepValue, hopen]
    | cons e entries =>
      obtain ⟨k, v⟩ := e
      obtain ⟨hv, hothers⟩ := List.forall_mem_cons.mp hentries
      have htail := foldlM_entryTokens hothers [] k v rest
      simp only [tokens, List.cons_append, List.append_assoc, List.foldlM_cons]
      simp only [step, stepValue, hopen, if_true, Option.bind_eq_bind, Option.bind_some]
      rw [hv, htail]
      rfl

end Position

/-- **A value is read back** from its compact text. -/
theorem parse?_compress {n : Nat} {v : Json} (h : Fits n v) (hn : n ≤ maxDepth) :
    parse? v.compress = some v := by
  have hlegible : Legible v.tokens := by
    simpa using h.legible ⟨.nil, nofun⟩
  have hroom : ([] : List Frame).length + n ≤ maxDepth := by simpa using hn
  have hreads := Position.reads_of_fits h hroom []
  rw [List.append_nil] at hreads
  rw [parse?, compress, String.toList_ofList, scan_flatMap_spell hlegible, Option.bind_some,
    ofTokens?, hreads]
  rfl

end ClassIdiom.Json
