import ClassIdiom.Proofs.AccessorHeadings
import ClassIdiom.Proofs.Failures
import ClassIdiom.Proofs.Tokens

/-! # What the lines of a member hold

A member that can be laid out has a spelling for each type that it mentions
(`exists_spelling_of_memberLines`). What is written for the types and the lines above a member are
`Layout.typeTexts` and `Layout.decorators`; each of them stands on a line of the member and is set
apart there from what is written around it (`exists_line_of_mem_typeTexts`,
`mem_lines_of_mem_decorators`). -/

namespace ClassIdiom

open Text (EndsApart StartsApart SetApart endsApart_empty startsApart_empty endsApart_mark
  startsApart_mark startsApart_of_isMark)

namespace Layout

variable {l : Layout}

/-! ### Spellings -/

theorem param_ok_iff {member text : String} {p : Parameter} :
    l.param member p = .ok text ↔ ∃ spelling, l.types.spell p.type = some spelling ∧
      l.style.typed p.name (l.style.referenced spelling) = text := by
  unfold param
  simp only [Logged.except_bind_ok_iff, spell_ok_iff, Except.ok.injEq]

theorem params_ok_iff {member text : String} {withReceiver : Bool} {ps : List Parameter} :
    l.params member withReceiver ps = .ok text ↔
      ∃ texts, List.Forall₂ (fun p s => l.param member p = .ok s) ps texts ∧
        ", ".intercalate ((if withReceiver then l.style.receiver.toList else []) ++ texts) =
          text := by
  unfold params
  simp only [Logged.except_bind_ok_iff, Logged.except_mapM_ok_iff, Except.ok.injEq]

/-- The line of a field whose type has a spelling. -/
def fieldText (l : Layout) (f : FlatField) (spelling : String) : String :=
  let (words, type) := l.style.fieldMarks f.isStatic f.mutability spelling
  l.style.accessWord f.access ++ words ++ l.style.typed f.name type ++
    f.initial.elim "" (" = " ++ ·) ++ l.style.terminator

theorem fieldLines_ok_iff {f : FlatField} {lines : List Line} :
    l.fieldLines f = .ok lines ↔ ∃ spelling, l.types.spell f.type = some spelling ∧
      Style.flush [l.fieldText f spelling] = lines := by
  unfold fieldLines fieldText
  simp only [Logged.except_bind_ok_iff, spell_ok_iff, Except.ok.injEq]
  cases f.initial <;> rfl

theorem methodLines_ok_iff {x : FlatMethod} {lines : List Line} :
    l.methodLines x = .ok lines ↔ ∃ spelling params, l.types.spell x.result = some spelling ∧
      l.params (x.origin.reportName x.signature.name) (!x.isStatic) x.params = .ok params ∧
      l.linesUnder x ⟨l.resultType x spelling, x.name, params⟩ = lines := by
  rw [methodLines_eq]
  constructor
  · intro h
    cases hk : l.heading x with
    | error e => exact nomatch hk ▸ h
    | ok k =>
      obtain ⟨spelling, params, hresult, hparams, rfl⟩ := heading_ok_iff.mp hk
      rw [hk] at h
      exact ⟨spelling, params, spell_ok_iff.mp hresult, hparams, Except.ok.inj h⟩
  · rintro ⟨spelling, params, hresult, hparams, rfl⟩
    rw [heading_ok_iff.mpr ⟨spelling, params, spell_ok_iff.mpr hresult, hparams, rfl⟩]
    rfl

/-- The head of a constructor around its parameters. -/
def constructorHead (l : Layout) (c : FlatConstructor) (params : String) : String :=
  l.style.accessWord c.access ++ Style.leading l.style.methodKeyword ++ l.constructorName ++ "(" ++
    params ++ ")" ++ l.constructorResult ++ Style.following (l.style.overrideWord c.overrides)

theorem constructorLines_ok_iff {c : FlatConstructor} {lines : List Line}
    (hc : c.isStatic = false) :
    l.constructorLines c = .ok lines ↔ ∃ params,
      l.params c.signature.name true c.params = .ok params ∧
      Style.flush (l.style.overrideLine c.overrides).toList ++
        l.style.block (l.constructorHead c params) c.body = lines := by
  unfold constructorLines
  rw [hc, if_neg Bool.false_ne_true]
  simp only [Logged.except_bind_ok_iff, Except.ok.injEq]
  rfl

theorem exists_spelling_of_params {member text : String} {withReceiver : Bool}
    {ps : List Parameter} (h : l.params member withReceiver ps = .ok text) {type : String}
    (ht : type ∈ ps.map (·.type)) : ∃ spelling, l.types.spell type = some spelling := by
  obtain ⟨texts, htexts, -⟩ := params_ok_iff.mp h
  obtain ⟨p, hp, rfl⟩ := List.mem_map.mp ht
  obtain ⟨s, -, hs⟩ := Logged.exists_of_mem_of_forall₂ htexts.flip hp
  obtain ⟨spelling, hspelling, -⟩ := param_ok_iff.mp hs
  exact ⟨spelling, hspelling⟩

/-- **A member that can be laid out** has a spelling for each type that it mentions. -/
theorem exists_spelling_of_memberLines {x : FlatMember} {lines : List Line}
    (h : l.memberLines x = .ok lines) {type : String} (ht : type ∈ x.types) :
    ∃ spelling, l.types.spell type = some spelling := by
  cases x with
  | field f =>
    obtain ⟨spelling, hspelling, -⟩ := fieldLines_ok_iff.mp h
    obtain rfl := List.mem_singleton.mp ht
    exact ⟨spelling, hspelling⟩
  | method x =>
    obtain ⟨spelling, params, hresult, hparams, -⟩ := methodLines_ok_iff.mp h
    rcases List.mem_cons.mp ht with rfl | ht
    · exact ⟨spelling, hresult⟩
    · exact exists_spelling_of_params hparams ht
  | constructor c =>
    cases hc : c.isStatic with
    | true => simp [FlatMember.types, hc] at ht
    | false =>
      obtain ⟨params, hparams, -⟩ := (constructorLines_ok_iff hc).mp h
      exact exists_spelling_of_params hparams (FlatMember.mem_types_constructor ht)

end Layout

/-! ### What stands apart on a line -/

namespace Style

variable (s : Style)

theorem endsApart_leading (word : Option String) : EndsApart (leading word) := by
  cases word with
  | none => exact endsApart_empty
  | some word => exact endsApart_mark (by decide) word

theorem startsApart_following (word : Option String) : StartsApart (following word) := by
  cases word with
  | none => exact startsApart_empty
  | some word => exact startsApart_mark (by decide) word

theorem endsApart_accessWord (a : Access) : EndsApart (s.accessWord a) := by
  unfold accessWord
  split
  · exact endsApart_mark (by decide) _
  · exact endsApart_empty

theorem endsApart_fieldMarks (isStatic : Bool) (m : Mutability) (type : String) :
    EndsApart (s.fieldMarks isStatic m type).1 := by
  have hplain : EndsApart
      (if isStatic then (leading s.staticFieldWord, s.staticType type) else ("", type)).1 := by
    cases isStatic with
    | true => exact endsApart_leading _
    | false => exact endsApart_empty
  unfold fieldMarks
  generalize (if isStatic then (leading s.staticFieldWord, s.staticType type) else ("", type)) =
    plain at hplain ⊢
  cases m <;> cases s.mutability
  case mutable.keyword | mutable.wrapped => exact hplain
  case readOnly.keyword => exact endsApart_mark (by decide) _
  case constant.keyword => exact endsApart_mark (by decide) _
  case readOnly.wrapped | constant.wrapped => exact endsApart_empty

theorem setApart_typed (name type : String) : SetApart type (s.typed name type) := by
  unfold typed
  split
  · rw [String.append_assoc]
    exact (SetApart.refl type).append (startsApart_mark (by decide) name)
  · exact (SetApart.refl type).prepend (endsApart_mark (by decide) name)

theorem exists_line_block (head : String) (body : List String) :
    ∃ line ∈ s.block head body, SetApart head line.text := by
  unfold block
  split
  · exact ⟨⟨0, head⟩, by simp [flush], SetApart.refl head⟩
  · refine ⟨⟨0, head ++ ":"⟩, by simp [flush], ?_⟩
    exact (SetApart.refl head).append (startsApart_of_isMark (by decide))

end Style

namespace Layout

variable {l : Layout}

/-- The types of parameters as they are written. -/
def paramTexts (l : Layout) (ps : List Parameter) : List String :=
  ps.filterMap fun p => (l.types.spell p.type).map l.style.referenced

/-- The types of a member as they are written, with the marks that show in them. -/
def typeTexts (l : Layout) : FlatMember → List String
  | .field f => (l.types.spell f.type).toList.map fun spelling =>
      (l.style.fieldMarks f.isStatic f.mutability spelling).2
  | .method x => (l.types.spell x.result).toList.map (l.resultType x) ++ l.paramTexts x.params
  | .constructor c =>
    if c.isStatic then []
    else l.paramTexts c.params ++
      match l.style.order with
      | .typeFirst => []
      | .nameFirst => (l.types.spell voidType).toList

/-- The lines above a member. -/
def decorators (l : Layout) : FlatMember → List String
  | .field _ => []
  | .method x => l.methodDecorators x
  | .constructor c => if c.isStatic then [] else (l.style.overrideLine c.overrides).toList

theorem setApart_of_mem_paramTexts {member params text : String} {withReceiver : Bool}
    {ps : List Parameter} (h : l.params member withReceiver ps = .ok params)
    (ht : text ∈ l.paramTexts ps) : SetApart text params := by
  obtain ⟨texts, htexts, rfl⟩ := params_ok_iff.mp h
  obtain ⟨p, hp, htext⟩ := List.mem_filterMap.mp ht
  obtain ⟨spelling, hspelling, rfl⟩ := Option.map_eq_some_iff.mp htext
  obtain ⟨s, hs, hparam⟩ := Logged.exists_of_mem_of_forall₂ htexts.flip hp
  obtain ⟨spelling', hspelling', rfl⟩ := param_ok_iff.mp hparam
  obtain rfl : spelling = spelling' := Option.some.inj (hspelling.symm.trans hspelling')
  exact (l.style.setApart_typed p.name _).trans (SetApart.intercalate (List.mem_append_right _ hs))

theorem setApart_declarator (name result params : String) :
    SetApart result (l.declarator name result params) ∧
      SetApart params (l.declarator name result params) := by
  unfold declarator
  split
  · constructor
    · simp only [String.append_assoc]
      exact (SetApart.refl result).append (startsApart_mark (by decide) _)
    · exact .between (endsApart_mark (by decide) _) (startsApart_of_isMark (by decide)) params
  · constructor
    · exact (SetApart.refl result).prepend (endsApart_mark (by decide) _)
    · rw [String.append_assoc]
      exact .between (endsApart_mark (by decide) _) (startsApart_mark (by decide) result) params

theorem setApart_methodHead (x : FlatMethod) (declarator : String) :
    SetApart declarator (l.methodHead x declarator) := by
  have hstatic : EndsApart (if x.isStatic then Style.leading l.style.staticMethodWord else "") := by
    cases x.isStatic with
    | true => exact Style.endsApart_leading _
    | false => exact endsApart_empty
  have hbefore := ((l.style.endsApart_accessWord x.access).append hstatic).append
    (Style.endsApart_leading (l.style.methodForm x.special).before) |>.append
    (Style.endsApart_leading l.style.methodKeyword)
  unfold methodHead
  exact (((SetApart.refl declarator).prepend hbefore).append
    (Style.startsApart_following _)).append (Style.startsApart_following _)

/-- The head of a method stands apart on its line. -/
theorem exists_line_of_method (ht : StartsApart l.style.terminator) (x : FlatMethod) (h : Heading) :
    ∃ line ∈ l.linesUnder x h,
      SetApart (l.declarator h.name h.result h.params) line.text := by
  have hhead := l.setApart_methodHead x (l.declarator h.name h.result h.params)
  unfold linesUnder
  cases l.bodyLines x with
  | some body =>
    obtain ⟨line, hline, hset⟩ := l.style.exists_line_block
      (l.methodHead x (l.declarator h.name h.result h.params)) body
    exact ⟨line, List.mem_append_right _ hline, hhead.trans hset⟩
  | none =>
    exact ⟨⟨0, _⟩, List.mem_append_right _ (List.mem_singleton_self _), hhead.append ht⟩

theorem setApart_constructorHead (c : FlatConstructor) (params : String) :
    SetApart params (l.constructorHead c params) := by
  have hresult : StartsApart l.constructorResult := by
    unfold constructorResult
    split
    · exact startsApart_mark (by decide) _
    · exact startsApart_empty
  unfold constructorHead
  exact (SetApart.between (endsApart_mark (by decide) _) (startsApart_of_isMark (by decide))
    params).append hresult |>.append (Style.startsApart_following _)

theorem setApart_constructorResult (c : FlatConstructor) (params : String) {result : String}
    (ho : l.style.order = .nameFirst) (hr : l.types.spell voidType = some result) :
    SetApart result (l.constructorHead c params) := by
  have hresult : l.constructorResult = " -> " ++ result := by
    unfold constructorResult
    rw [ho, hr]
  unfold constructorHead
  rw [hresult, ← String.append_assoc]
  exact ((SetApart.refl result).prepend (endsApart_mark (by decide) _)).append
    (Style.startsApart_following _)

/-- **What is written for a type** stands on a line of its member, apart from the rest. -/
theorem exists_line_of_mem_typeTexts (ht : StartsApart l.style.terminator) {x : FlatMember}
    {lines : List Line} (h : l.memberLines x = .ok lines) {text : String}
    (htext : text ∈ l.typeTexts x) : ∃ line ∈ lines, SetApart text line.text := by
  cases x with
  | field f =>
    obtain ⟨spelling, hspelling, rfl⟩ := fieldLines_ok_iff.mp h
    have htype : text = (l.style.fieldMarks f.isStatic f.mutability spelling).2 := by
      simpa [typeTexts, hspelling] using htext
    have hinitial : StartsApart (f.initial.elim "" (" = " ++ ·)) := by
      cases f.initial with
      | none => exact startsApart_empty
      | some value => exact startsApart_mark (by decide) value
    refine ⟨⟨0, l.fieldText f spelling⟩, List.mem_singleton_self _, ?_⟩
    have htyped := l.style.setApart_typed f.name text
    rw [htype] at htyped ⊢
    exact ((htyped.prepend ((l.style.endsApart_accessWord f.access).append
      (l.style.endsApart_fieldMarks _ _ _))).append hinitial).append ht
  | method x =>
    obtain ⟨spelling, params, hresult, hparams, rfl⟩ := methodLines_ok_iff.mp h
    obtain ⟨line, hline, hset⟩ := l.exists_line_of_method ht x
      ⟨l.resultType x spelling, x.name, params⟩
    have hdecl := l.setApart_declarator x.name (l.resultType x spelling) params
    refine ⟨line, hline, SetApart.trans ?_ hset⟩
    rcases List.mem_append.mp htext with htext | htext
    · have htype : text = l.resultType x spelling := by simpa [hresult] using htext
      rw [htype]
      exact hdecl.1
    · exact (setApart_of_mem_paramTexts hparams htext).trans hdecl.2
  | constructor c =>
    cases hc : c.isStatic with
    | true => simp [typeTexts, hc] at htext
    | false =>
      obtain ⟨params, hparams, rfl⟩ := (constructorLines_ok_iff hc).mp h
      obtain ⟨line, hline, hset⟩ := l.style.exists_line_block (l.constructorHead c params) c.body
      refine ⟨line, List.mem_append_right _ hline, SetApart.trans ?_ hset⟩
      rw [typeTexts, hc, if_neg Bool.false_ne_true] at htext
      rcases List.mem_append.mp htext with htext | htext
      · exact (setApart_of_mem_paramTexts hparams htext).trans (l.setApart_constructorHead c params)
      · cases ho : l.style.order with
        | typeFirst => exact nomatch ho ▸ htext
        | nameFirst =>
          rw [ho] at htext
          exact l.setApart_constructorResult c params ho (Option.mem_toList.mp htext)

/-- **A line above a member** is one of its lines. -/
theorem mem_lines_of_mem_decorators {x : FlatMember} {lines : List Line}
    (h : l.memberLines x = .ok lines) {text : String} (htext : text ∈ l.decorators x) :
    ⟨0, text⟩ ∈ lines := by
  cases x with
  | field f => exact nomatch htext
  | method x =>
    obtain ⟨spelling, params, -, -, rfl⟩ := methodLines_ok_iff.mp h
    exact List.mem_append_left _ (List.mem_map_of_mem htext)
  | constructor c =>
    cases hc : c.isStatic with
    | true => simp [decorators, hc] at htext
    | false =>
      obtain ⟨params, -, rfl⟩ := (constructorLines_ok_iff hc).mp h
      rw [decorators, hc, if_neg Bool.false_ne_true] at htext
      exact List.mem_append_left _ (List.mem_map_of_mem htext)

end Layout

end ClassIdiom
