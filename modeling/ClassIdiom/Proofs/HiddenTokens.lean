import ClassIdiom.Proofs.Tokens

/-! # Tokens that are missed

A token stands apart in a text if, where it begins or ends with an identifier character, the
neighbour on that side is none (`StandsApart`). What the search finds always stands apart. The
converse holds for the tokens that do not hide themselves, and for no others: if a token hides
itself `k` characters on, then `missingText` has it at two places, of which the first one is turned
down and the second one, though set apart, is run over.

* `standsApart_missingText`, `containsToken_missingText`: the token is there, and is not found;
* `containsToken_complete_iff`: a token is found wherever it stands apart exactly if it does not
  hide itself. -/

namespace ClassIdiom.Text

/-- **The token stands apart** between two texts: where it begins or ends with an identifier
character, the neighbour on that side is none. -/
def StandsApart (token before after : String) : Prop :=
  (¬ StartsApart token → EndsApart before) ∧ (¬ EndsApart token → StartsApart after)

instance (token before after : String) : Decidable (StandsApart token before after) := by
  unfold StandsApart; infer_instance

theorem separated_iff_standsApart {token before after : String} :
    separated token.toList before.toList.getLast? after.toList.head? = true ↔
      StandsApart token before after := by
  unfold StandsApart StartsApart EndsApart
  rw [separated_iff, Bool.not_eq_false, Bool.not_eq_false]

theorem occurs_iff_standsApart {token text : String} :
    Occurs token text ↔
      ∃ before after, text = before ++ token ++ after ∧ StandsApart token before after := by
  unfold Occurs
  simp only [separated_iff_standsApart]

/-! ### A text in which a token is missed -/

/-- An identifier character, and behind it the token at two places, the second one `k` characters
after the first one. -/
def missingText (token : List Char) (k : Nat) : List Char := 'x' :: (token.take k ++ token)

theorem touches_x : touches (some 'x') = true := by decide +kernel

theorem eq_of_mem_of_prefix_cons {a : Char} {l : List Char} (h : l <+: a :: l) :
    ∀ c ∈ l, c = a := by
  induction l with
  | nil => exact fun _ hc => nomatch hc
  | cons b l ih =>
    obtain ⟨rfl, hl⟩ := List.cons_prefix_cons.mp h
    intro c hc
    rcases List.mem_cons.mp hc with rfl | hc
    · rfl
    · exact ih hl c hc

variable {token : List Char} {k : Nat}

/-- What follows the first place is shorter than the token. -/
theorem HidesAt.take_append_eq (h : HidesAt token k) :
    token.take k ++ token = token ++ token.drop (token.length - k) := by
  have hsecond : token.drop k ++ token.drop (token.length - k) = token := by
    have hborder := List.prefix_iff_eq_append.mp h.border
    rwa [List.length_drop] at hborder
  calc token.take k ++ token
      = token.take k ++ (token.drop k ++ token.drop (token.length - k)) := by rw [hsecond]
    _ = token ++ token.drop (token.length - k) := by
        rw [← List.append_assoc, List.take_append_drop]

theorem HidesAt.take_ne_nil (h : HidesAt token k) : token.take k ≠ [] := by
  have hpos := h.pos
  have hlt := h.lt
  refine List.ne_nil_of_length_pos ?_
  rw [List.length_take]
  omega

/-- The token does not stand at the very start. -/
theorem HidesAt.not_prefix_missingText (h : HidesAt token k) : ¬ token <+: missingText token k := by
  unfold missingText
  rw [h.take_append_eq]
  intro hprefix
  have hshort : token <+: 'x' :: token :=
    List.prefix_of_prefix_length_le hprefix (List.prefix_append ('x' :: token) _) (Nat.le_succ _)
  -- Each character of the token would be the same as the one before it.
  have hall := eq_of_mem_of_prefix_cons hshort
  have hne : token ≠ [] := fun hnil => h.take_ne_nil (by rw [hnil, List.take_nil])
  have hhead : token.head? = some 'x' := by
    rw [List.head?_eq_some_head hne, hall _ (List.head_mem hne)]
  have hlast : (token.take k).getLast? = some 'x' := by
    rw [List.getLast?_eq_some_getLast h.take_ne_nil,
      hall _ (List.mem_of_mem_take (List.getLast_mem h.take_ne_nil))]
  have hapart := h.apart
  rw [hhead, hlast, touches_x] at hapart
  exact Bool.noConfusion (hapart rfl)

/-- At the first place the token is turned down. -/
theorem HidesAt.not_separated (h : HidesAt token k) :
    separated token (some 'x') (token.drop (token.length - k)).head? = false := by
  rw [← Bool.not_eq_true, separated_iff, touches_x]
  rintro ⟨hbefore, hafter⟩
  rcases h.turned with hstart | ⟨hend, hfollows⟩
  · exact Bool.noConfusion (hbefore hstart)
  · rw [hafter hend] at hfollows
    exact Bool.noConfusion hfollows

/-- **The token is not found**: it is turned down at the first place, and too little is left behind
that. -/
theorem HidesAt.occursFrom_missingText (h : HidesAt token k) :
    occursFrom token none 0 (missingText token k) = false := by
  have hstart : ¬ token.isPrefixOf (missingText token k) = true :=
    mt List.isPrefixOf_iff_prefix.mp h.not_prefix_missingText
  have hskip : occursFrom token none 0 (missingText token k) =
      occursFrom token (some 'x') 0 (token ++ token.drop (token.length - k)) := by
    unfold missingText at hstart ⊢
    rw [occursFrom, if_neg hstart, h.take_append_eq]
  have hlt := h.lt
  have hturned := h.not_separated
  have hlength : (token.drop (token.length - k)).length = k := by
    rw [List.length_drop]
    omega
  rw [hskip, ← Bool.not_eq_true]
  generalize token.drop (token.length - k) = rest at hturned hlength
  have hne : token ≠ [] := List.ne_nil_of_length_pos (Nat.zero_lt_of_lt hlt)
  obtain ⟨c, cs, rfl⟩ := List.exists_cons_of_ne_nil hne
  rw [occursFrom_place, hturned, Bool.false_or]
  intro hfound
  obtain ⟨front, after, htext, hfront, -⟩ := exists_place_of_occursFrom hfound
  have hlengths := congrArg List.length htext
  simp only [List.length_append, List.length_cons] at hlengths hlt
  omega

/-- **The token stands apart** at the second place. -/
theorem HidesAt.standsApart_missingText {token : String} (h : HidesAt token.toList k) :
    StandsApart token (String.ofList ('x' :: token.toList.take k)) "" := by
  refine ⟨fun hstart => ?_, fun _ => startsApart_empty⟩
  have hlast := h.apart (Bool.not_eq_false _ ▸ hstart)
  unfold EndsApart
  rw [String.toList_ofList, List.getLast?_cons, List.getLast?_eq_some_getLast h.take_ne_nil]
  rwa [List.getLast?_eq_some_getLast h.take_ne_nil] at hlast

theorem HidesAt.containsToken_missingText {token : String} (h : HidesAt token.toList k) :
    containsToken (String.ofList ('x' :: token.toList.take k) ++ token ++ "") token = false := by
  unfold containsToken
  have htext : (String.ofList ('x' :: token.toList.take k) ++ token ++ "").toList =
      missingText token.toList k := by
    simp [missingText]
  rw [htext, h.occursFrom_missingText, Bool.and_false]

/-! ### The tokens that are found -/

/-- **Which tokens are always found.** What is found stands apart in the text. A token is found
wherever it stands apart exactly if it does not hide itself. -/
theorem containsToken_complete_iff {token : String} (hne : token ≠ "") :
    (∀ text, containsToken text token = true →
      ∃ before after, text = before ++ token ++ after ∧ StandsApart token before after) ∧
    ((∀ before after, StandsApart token before after →
      containsToken (before ++ token ++ after) token = true) ↔ ¬ HidesItself token.toList) := by
  refine ⟨fun text h => occurs_iff_standsApart.mp (occurs_of_containsToken h), ?_, ?_⟩
  · rintro hall ⟨k, hk⟩
    have hfound := hall _ _ hk.standsApart_missingText
    rw [hk.containsToken_missingText] at hfound
    exact Bool.noConfusion hfound
  · intro hh before after hapart
    exact containsToken_of_occurs hne hh (occurs_iff_standsApart.mpr ⟨before, after, rfl, hapart⟩)

/-- Two underscores can overlap themselves, but do not hide themselves. -/
theorem containsToken_complete_underscores :
    "__" ≠ "" ∧ ¬ Unbordered "__".toList ∧ ∀ before after, StandsApart "__" before after →
      containsToken (before ++ "__" ++ after) "__" = true := by
  refine ⟨by decide, by decide, ?_⟩
  exact (@containsToken_complete_iff "__" (by decide)).2.mpr (by decide +kernel)

/-- **A token can be missed** where it stands apart: it is turned down within the first word, and
what follows overlaps that place. -/
theorem containsToken_can_miss :
    "radio.io.io" = "radio." ++ "io.io" ++ "" ∧ StandsApart "io.io" "radio." "" ∧
      containsToken "radio.io.io" "io.io" = false := by
  refine ⟨by decide, by decide +kernel, by decide +kernel⟩

end ClassIdiom.Text
