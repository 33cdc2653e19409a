import ClassIdiom.Text.Token

/-! # Where tokens stand

The search for a token resumes behind each place where the token stood, so it might run over a place
that overlaps one it has turned down. It does so only for a token that hides itself: such a token
can stand at two places that overlap, be turned down at the first one and be set apart at the second
one. `containsToken_of_occurs` says that any other token is found wherever it occurs, and
`containsToken_iff_occurs` takes the simplest case, where no end of the token is also a beginning of
it.

A piece is set apart in a text if no identifier character stands next to it. A token that occurs in
such a piece occurs in the text as well. -/

namespace ClassIdiom.Text

/-- Neighbours matter only where the token begins or ends with an identifier character. -/
theorem separated_iff {token : List Char} {before after : Option Char} :
    separated token before after = true ↔
      (touches token.head? = true → touches before = false) ∧
        (touches token.getLast? = true → touches after = false) := by
  unfold separated
  cases touches token.head? <;> cases touches token.getLast? <;> simp

/-! ### Places that overlap -/

/-- No end of the token is also a beginning of it, apart from the whole. -/
def Unbordered (token : List Char) : Prop :=
  ∀ k < token.length, 0 < k → ¬ token.drop k <+: token

instance (token : List Char) : Decidable (Unbordered token) := by
  unfold Unbordered; infer_instance

/-- **The token hides itself** `k` characters on: it can stand at two places, the second one `k`
characters behind the first one and overlapping it, such that it is turned down at the first place
and set apart at the second one. -/
structure HidesAt (token : List Char) (k : Nat) : Prop where
  pos : 0 < k
  lt : k < token.length
  border : token.drop k <+: token
  /-- The part of the first place before the second one sets the second one apart. -/
  apart : touches token.head? = true → touches (token.take k).getLast? = false
  /-- The first place is turned down by something before it, or else by the rest of the second
  place. -/
  turned : touches token.head? = true ∨
    touches token.getLast? = true ∧ touches (token.drop (token.length - k)).head? = true

/-- The token hides itself at some distance. -/
def HidesItself (token : List Char) : Prop := ∃ k, HidesAt token k

instance (token : List Char) : Decidable (HidesItself token) :=
  decidable_of_iff
    (∃ k < token.length, 0 < k ∧ token.drop k <+: token ∧
      (touches token.head? = true → touches (token.take k).getLast? = false) ∧
      (touches token.head? = true ∨
        touches token.getLast? = true ∧ touches (token.drop (token.length - k)).head? = true))
    ⟨fun ⟨k, lt, pos, border, apart, turned⟩ => ⟨k, pos, lt, border, apart, turned⟩,
      fun ⟨k, h⟩ => ⟨k, h.lt, h.pos, h.border, h.apart, h.turned⟩⟩

theorem Unbordered.not_hidesItself {token : List Char} (hu : Unbordered token) :
    ¬ HidesItself token := by
  rintro ⟨k, h⟩
  exact hu k h.lt h.pos h.border

/-- The end of the first one of two places that overlap is a beginning of the token. -/
theorem drop_prefix_of_overlap {token front after : List Char} (hlt : front.length < token.length)
    (h : token <+: front ++ (token ++ after)) : token.drop front.length <+: token := by
  have hdrop : token.drop front.length <+: token ++ after := by
    obtain ⟨rest, hrest⟩ := h
    refine ⟨rest, ?_⟩
    rw [← List.drop_append_of_le_length (Nat.le_of_lt hlt), hrest, List.drop_left]
  refine List.prefix_of_prefix_length_le hdrop (List.prefix_append token after) ?_
  rw [List.length_drop]
  omega

/-- **Of two places that overlap**, the first one is set apart if the second one is, unless the
token hides itself. -/
theorem separated_of_overlap {token front after : List Char} (hh : ¬ HidesItself token)
    (hfront : front ≠ []) (hlt : front.length < token.length)
    (h : token <+: front ++ (token ++ after))
    (hs : separated token front.getLast? after.head? = true) (previous : Option Char) :
    separated token previous ((front ++ (token ++ after)).drop token.length).head? = true := by
  have hpos : 0 < front.length := List.length_pos_iff.mpr hfront
  have hborder := drop_prefix_of_overlap hlt h
  have htake : token.take front.length = front := by
    rw [List.prefix_iff_eq_take.mp h, List.take_take, Nat.min_eq_left (Nat.le_of_lt hlt),
      List.take_left]
  have hnext : ((front ++ (token ++ after)).drop token.length).head? =
      (token.drop (token.length - front.length)).head? := by
    have hne : token.drop (token.length - front.length) ≠ [] := by
      rw [Ne, List.drop_eq_nil_iff]
      omega
    rw [List.drop_append, List.drop_eq_nil_of_le (Nat.le_of_lt hlt), List.nil_append,
      List.drop_append_of_le_length (Nat.sub_le _ _), List.head?_append,
      List.head?_eq_some_head hne, Option.some_or]
  rw [separated_iff] at hs
  have hkept : ¬ (touches token.head? = true ∨ touches token.getLast? = true ∧
      touches (token.drop (token.length - front.length)).head? = true) := by
    intro hturned
    refine hh ⟨front.length, hpos, hlt, hborder, ?_, hturned⟩
    rw [htake]
    exact hs.1
  obtain ⟨hstart, hfollows⟩ := not_or.mp hkept
  rw [separated_iff, hnext]
  exact ⟨fun h => absurd h hstart, fun hend => Bool.eq_false_iff.mpr fun h => hfollows ⟨hend, h⟩⟩

/-! ### The search -/

theorem getLast?_cons_or (c : Char) (front : List Char) (previous : Option Char) :
    (c :: front).getLast?.or previous = front.getLast?.or (some c) := by
  rw [List.getLast?_cons]
  cases front.getLast? <;> rfl

/-- Where the token stands it is judged by its neighbours, and the search goes on behind it. -/
theorem occursFrom_place (c : Char) (cs after : List Char) (previous : Option Char) :
    occursFrom (c :: cs) previous 0 (c :: cs ++ after) =
      (separated (c :: cs) previous after.head? ||
        occursFrom (c :: cs) (some c) cs.length (cs ++ after)) := by
  have hprefix : (c :: cs).isPrefixOf (c :: (cs ++ after)) = true :=
    List.isPrefixOf_iff_prefix.mpr (List.prefix_append (c :: cs) after)
  have hdrop : (c :: (cs ++ after)).drop (c :: cs).length = after := by
    rw [← List.cons_append, List.drop_left]
  rw [List.cons_append, occursFrom, if_pos hprefix, hdrop]
  rfl

/-- The search does not miss a place that it has not come to yet. -/
theorem occursFrom_of_place {token after : List Char} (hne : token ≠ []) (hh : ¬ HidesItself token)
    (front : List Char) (previous : Option Char) (skip : Nat) (hskip : skip ≤ front.length)
    (hs : separated token (front.getLast?.or previous) after.head? = true) :
    occursFrom token previous skip (front ++ (token ++ after)) = true := by
  induction front generalizing previous skip with
  | nil =>
    obtain rfl : skip = 0 := Nat.le_zero.mp hskip
    obtain ⟨c, cs, rfl⟩ := List.exists_cons_of_ne_nil hne
    rw [List.getLast?_nil, Option.none_or] at hs
    rw [List.nil_append, occursFrom_place, hs, Bool.true_or]
  | cons c front ih =>
    have hs' := getLast?_cons_or c front previous ▸ hs
    rw [List.cons_append]
    cases skip with
    | succ skip =>
      rw [occursFrom]
      exact ih _ _ (Nat.le_of_succ_le_succ hskip) hs'
    | zero =>
      rw [occursFrom]
      split
      · next hprefix =>
        rcases Nat.lt_or_ge (c :: front).length token.length with hlt | hlen
        · -- The token stands here too, and the place to come overlaps this one.
          have hlast : (c :: front).getLast?.or previous = (c :: front).getLast? := by
            rw [List.getLast?_cons, Option.some_or]
          rw [hlast] at hs
          have hhere := separated_of_overlap hh (List.cons_ne_nil c front) hlt
            (List.isPrefixOf_iff_prefix.mp hprefix) hs previous
          rw [List.cons_append] at hhere
          rw [hhere, Bool.true_or]
        · rw [List.length_cons] at hlen
          rw [ih _ _ (by omega) hs', Bool.or_true]
      · exact ih _ _ (Nat.zero_le _) hs'

/-- **The token occurs in the text**: it stands there and is no part of a longer identifier. -/
def Occurs (token text : String) : Prop :=
  ∃ before after, text = before ++ token ++ after ∧
    separated token.toList before.toList.getLast? after.toList.head? = true

/-- **A token that does not hide itself is found** wherever it occurs. -/
theorem containsToken_of_occurs {token text : String} (hne : token ≠ "")
    (hh : ¬ HidesItself token.toList) (h : Occurs token text) :
    containsToken text token = true := by
  obtain ⟨before, after, rfl, hs⟩ := h
  unfold containsToken
  have hchars : token.toList ≠ [] := fun h => hne (String.toList_eq_nil_iff.mp h)
  have hfound := occursFrom_of_place hchars hh before.toList none 0 (Nat.zero_le _)
    (by rwa [Option.or_none])
  rw [String.toList_append, String.toList_append, List.append_assoc, hfound]
  simpa using hne

/-- What the search finds is a place of the token behind what is skipped, and it is set apart
there. -/
theorem exists_place_of_occursFrom {token cs : List Char} {previous : Option Char} {skip : Nat}
    (h : occursFrom token previous skip cs = true) :
    ∃ front after, cs = front ++ (token ++ after) ∧ skip ≤ front.length ∧
      separated token (front.getLast?.or previous) after.head? = true := by
  fun_induction occursFrom token previous skip cs with
  | case1 => exact nomatch h
  | case2 previous skip c cs ih =>
    obtain ⟨front, after, rfl, hskip, hs⟩ := ih h
    exact ⟨c :: front, after, rfl, Nat.succ_le_succ hskip, by rwa [getLast?_cons_or]⟩
  | case3 previous c cs hprefix ih =>
    rcases Bool.or_eq_true_iff.mp h with hs | hlater
    · obtain ⟨after, hafter⟩ := List.isPrefixOf_iff_prefix.mp hprefix
      rw [← hafter, List.drop_left] at hs
      exact ⟨[], after, hafter.symm, Nat.le_refl 0, hs⟩
    · obtain ⟨front, after, rfl, -, hs⟩ := ih hlater
      exact ⟨c :: front, after, rfl, Nat.zero_le _, by rwa [getLast?_cons_or]⟩
  | case4 previous c cs _ ih =>
    obtain ⟨front, after, rfl, -, hs⟩ := ih h
    exact ⟨c :: front, after, rfl, Nat.zero_le _, by rwa [getLast?_cons_or]⟩

theorem occurs_of_containsToken {token text : String} (h : containsToken text token = true) :
    Occurs token text := by
  obtain ⟨-, hfound⟩ := Bool.and_eq_true_iff.mp h
  obtain ⟨front, after, htext, -, hs⟩ := exists_place_of_occursFrom hfound
  refine ⟨String.ofList front, String.ofList after, ?_, ?_⟩
  · apply String.toList_injective
    simp [htext]
  · simpa using hs

/-- **A token without borders is found** exactly if it occurs. -/
theorem containsToken_iff_occurs {token text : String} (hne : token ≠ "")
    (hu : Unbordered token.toList) : containsToken text token = true ↔ Occurs token text :=
  ⟨occurs_of_containsToken, containsToken_of_occurs hne hu.not_hidesItself⟩

/-- A token occurs if it stands at some place of the text, counted in characters. -/
theorem occurs_iff_exists_place {token text : String} :
    Occurs token text ↔ ∃ n ≤ text.toList.length, token.toList <+: text.toList.drop n ∧
      separated token.toList (text.toList.take n).getLast?
        (text.toList.drop (n + token.toList.length)).head? = true := by
  constructor
  · rintro ⟨before, after, rfl, hs⟩
    refine ⟨before.toList.length, by simp, ?_, ?_⟩
    · simp
    · simpa using hs
  · rintro ⟨n, -, ⟨rest, hrest⟩, hs⟩
    have htext : text.toList = text.toList.take n ++ (token.toList ++ rest) := by
      rw [hrest, List.take_append_drop]
    refine ⟨String.ofList (text.toList.take n), String.ofList rest, ?_, ?_⟩
    · apply String.toList_injective
      simpa using htext
    · rw [← List.drop_drop, ← hrest, List.drop_left] at hs
      simpa using hs

instance (token text : String) : Decidable (Occurs token text) :=
  decidable_of_iff _ occurs_iff_exists_place.symm

/-! ### Pieces of a text -/

/-- The text does not end with an identifier character. -/
def EndsApart (s : String) : Prop := touches s.toList.getLast? = false

/-- The text does not start with an identifier character. -/
def StartsApart (s : String) : Prop := touches s.toList.head? = false

instance (s : String) : Decidable (EndsApart s) := by unfold EndsApart; infer_instance

instance (s : String) : Decidable (StartsApart s) := by unfold StartsApart; infer_instance

/-- **The piece is set apart in the text**: no identifier character stands next to it. -/
def SetApart (piece text : String) : Prop :=
  ∃ before after, text = before ++ piece ++ after ∧ EndsApart before ∧ StartsApart after

theorem endsApart_empty : EndsApart "" := rfl

theorem startsApart_empty : StartsApart "" := rfl

theorem EndsApart.append {a b : String} (ha : EndsApart a) (hb : EndsApart b) :
    EndsApart (a ++ b) := by
  unfold EndsApart at *
  rw [String.toList_append, List.getLast?_append]
  cases hlast : b.toList.getLast? with
  | none => exact ha
  | some c => rwa [hlast] at hb

theorem StartsApart.append {a b : String} (ha : StartsApart a) (hb : StartsApart b) :
    StartsApart (a ++ b) := by
  unfold StartsApart at *
  rw [String.toList_append, List.head?_append]
  cases hhead : a.toList.head? with
  | none => exact hb
  | some c => rwa [hhead] at ha

/-- The punctuation below the letters. -/
def isMark (c : Char) : Bool := c.toNat < 48 || (57 < c.toNat && c.toNat < 65)

theorem isIdentifierChar_of_isMark {c : Char} (h : isMark c = true) :
    isIdentifierChar c = false := by
  have hranges : ∀ r ∈ alphanumerics.ranges, r.1 = 48 ∧ r.2 = 57 ∨ 65 ≤ r.1 := by decide +kernel
  have hmark : c.toNat < 48 ∨ 57 < c.toNat ∧ c.toNat < 65 := by simpa [isMark] using h
  have hline : c ≠ '_' := by
    rintro rfl
    exact absurd h (by decide)
  have hclass : ¬ alphanumerics.contains c = true := by
    intro hc
    obtain ⟨r, hr, hlow, hhigh⟩ := CharClass.contains_iff.mp hc
    have := hranges r hr
    omega
  simp [isIdentifierChar, hline, hclass]

theorem startsApart_of_isMark {s : String} (hs : s.toList.head?.any isMark = true) :
    StartsApart s := by
  obtain ⟨c, hc, hmark⟩ := (Option.any_eq_true isMark _).mp hs
  unfold StartsApart
  rw [hc]
  exact isIdentifierChar_of_isMark hmark

/-- A text may come before a mark, -/
theorem endsApart_mark {s : String} (hs : s.toList.getLast?.any isMark = true) (a : String) :
    EndsApart (a ++ s) := by
  obtain ⟨c, hc, hmark⟩ := (Option.any_eq_true isMark _).mp hs
  unfold EndsApart
  rw [String.toList_append, List.getLast?_append, hc]
  exact isIdentifierChar_of_isMark hmark

/-- and a text may follow it. -/
theorem startsApart_mark {s : String} (hs : s.toList.head?.any isMark = true) (b : String) :
    StartsApart (s ++ b) := by
  obtain ⟨c, hc, -⟩ := (Option.any_eq_true isMark _).mp hs
  refine startsApart_of_isMark ?_
  rw [String.toList_append, List.head?_append, hc]
  rwa [hc] at hs

namespace SetApart

variable {piece text : String}

theorem refl (text : String) : SetApart text text :=
  ⟨"", "", by simp, endsApart_empty, startsApart_empty⟩

theorem between {before after : String} (hb : EndsApart before) (ha : StartsApart after)
    (piece : String) : SetApart piece (before ++ piece ++ after) :=
  ⟨before, after, rfl, hb, ha⟩

theorem trans {part : String} (h : SetApart piece part) (h' : SetApart part text) :
    SetApart piece text := by
  obtain ⟨b, a, rfl, hb, ha⟩ := h
  obtain ⟨b', a', rfl, hb', ha'⟩ := h'
  exact ⟨b' ++ b, a ++ a', by simp only [String.append_assoc], hb'.append hb, ha.append ha'⟩

theorem prepend {before : String} (h : SetApart piece text) (hb : EndsApart before) :
    SetApart piece (before ++ text) :=
  h.trans ⟨before, "", by simp, hb, startsApart_empty⟩

theorem append {after : String} (h : SetApart piece text) (ha : StartsApart after) :
    SetApart piece (text ++ after) :=
  h.trans ⟨"", after, by simp, endsApart_empty, ha⟩

/-- What is listed is set apart from its neighbours. -/
theorem intercalate {pieces : List String} (h : piece ∈ pieces) :
    SetApart piece (", ".intercalate pieces) := by
  induction pieces with
  | nil => exact nomatch h
  | cons first rest ih =>
    cases rest with
    | nil =>
      obtain rfl := List.mem_singleton.mp h
      rw [String.intercalate_singleton]
      exact refl piece
    | cons second rest =>
      rw [String.intercalate_cons_cons]
      rcases List.mem_cons.mp h with rfl | h
      · rw [String.append_assoc]
        exact (refl piece).append (startsApart_mark (by decide) _)
      · exact (ih h).prepend (endsApart_mark (by decide) first)

end SetApart

theorem separated_of_apart {token : List Char} {before after before' after' : Option Char}
    (h : separated token before after = true) (hb : before' = before ∨ touches before' = false)
    (ha : after' = after ∨ touches after' = false) : separated token before' after' = true := by
  unfold separated at *
  rcases hb with rfl | hb <;> rcases ha with rfl | ha <;> simp_all

/-- **A token that occurs in a piece** occurs in every text that the piece is set apart in. -/
theorem Occurs.of_setApart {token piece text : String} (h : Occurs token piece)
    (hp : SetApart piece text) : Occurs token text := by
  obtain ⟨b, a, rfl, hs⟩ := h
  obtain ⟨b', a', rfl, hb', ha'⟩ := hp
  refine ⟨b' ++ b, a ++ a', by simp only [String.append_assoc], separated_of_apart hs ?_ ?_⟩
  · rw [String.toList_append, List.getLast?_append]
    cases b.toList.getLast? with
    | none => exact Or.inr hb'
    | some c => exact Or.inl rfl
  · rw [String.toList_append, List.head?_append]
    cases a.toList.head? with
    | none => exact Or.inr ha'
    | some c => exact Or.inl rfl

end ClassIdiom.Text
