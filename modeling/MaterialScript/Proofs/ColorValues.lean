/-
What a color value reads.

A color is written as numbers with commas between them, on one line and after an
`=` or none. `ColorTerms` says which items of a line are such numbers and what they
come to. All of them are read, however many there are: one makes a gray, of more the
first four count (`Color.Shows`). What follows the last component is left where it
stands, unless it is a comma: then the next component must stand on the same line
(`color_run`).
-/
import MaterialScript.Proofs.StringValues

namespace MaterialScript

/-! ## Components -/

section Components

variable (vars : Variables)

/-- A component: a number, which a minus may negate. -/
inductive ColorTerm : List Item → Float → Prop
  | plain {i : Item} {v : Float} : NumberTerm vars i v → ColorTerm [i] v
  | negated {m : Token} {i : Item} {v : Float} :
      m.isSymbol .minus → NumberTerm vars i v → ColorTerm [.token m, i] (-v)

/-- Components with a comma between them. -/
inductive ColorTerms : List Item → List Float → Prop
  | last {is : List Item} {v : Float} : ColorTerm vars is v → ColorTerms is [v]
  | more {is js : List Item} {comma : Token} {v : Float} {vs : List Float} :
      ColorTerm vars is v → comma.isSymbol .comma → ColorTerms js vs →
      ColorTerms (is ++ .token comma :: js) (v :: vs)

end Components

/-- The `=` that may stand before a value. -/
inductive OptionalEqual : List Item → Prop
  | absent : OptionalEqual []
  | present {x : Token} : x.isSymbol .equal → OptionalEqual [.token x]

/-- The color of these components, each clamped to a byte and cut off after the point, which is
`Float.toUInt8`: one makes an opaque gray; of more the first four count, and those that are not
given are 255. -/
structure Color.Shows (c : Color) (vs : List Float) : Prop where
  one : ∀ v, vs = [v] → c = ⟨v.toUInt8, v.toUInt8, v.toUInt8, 255⟩
  more : ∀ v w rest, vs = v :: w :: rest → c.red = v.toUInt8 ∧ c.green = w.toUInt8 ∧
    c.blue = rest[0]?.elim 255 Float.toUInt8 ∧ c.alpha = rest[1]?.elim 255 Float.toUInt8

theorem Color.shows_ofComponents (vs : List Float) :
    (Color.ofComponents (vs.map Color.component)).Shows vs where
  one v h := by
    rw [h]
    rfl
  more v w rest h := by
    rw [h]
    match rest with
    | [] => exact ⟨rfl, rfl, rfl, rfl⟩
    | [_] => exact ⟨rfl, rfl, rfl, rfl⟩
    | _ :: _ :: _ => exact ⟨rfl, rfl, rfl, rfl⟩

/-- The last of these tokens is no whitespace. -/
def EndsInWord (ts : List Token) : Prop := ∃ front t, ts = front ++ [t] ∧ t.isSpace = false

theorem EndsInWord.append_left {ts : List Token} (h : EndsInWord ts) (us : List Token) :
    EndsInWord (us ++ ts) := by
  obtain ⟨front, t, rfl, ht⟩ := h
  exact ⟨us ++ front, t, (List.append_assoc ..).symm, ht⟩

theorem endsInWord_singleton {t : Token} (ht : t.isSpace = false) : EndsInWord [t] :=
  ⟨[], t, rfl, ht⟩

/-- A token that names a variable is followed by its name. -/
theorem exists_name_of_items {t : Token} (ht : t.isSpace = false) {line : List Token}
    {name : String} {is : List Item} (h : items (t :: line) = .reference name :: is) :
    ∃ u more, line = u :: more ∧ t.isSymbol .atSign ∧ u.kind = .name ∧ u.text = name ∧
      items more = is := by
  rcases items_cons_cases ht line with ⟨u, more, rfl, hrefers, hitems⟩ | ⟨-, hitems⟩
  · rw [hitems] at h
    cases h
    obtain ⟨hat, hname⟩ := Bool.and_eq_true_iff.1 hrefers
    exact ⟨u, more, rfl, hat, by simpa using hname, rfl, rfl⟩
  · rw [hitems] at h
    cases h

/-- A token that is an item of its own is followed by the other items. -/
theorem items_of_token {t x : Token} (ht : t.isSpace = false) {line : List Token} {is : List Item}
    (h : items (t :: line) = .token x :: is) : x = t ∧ items line = is := by
  rcases items_cons_cases ht line with ⟨u, more, rfl, -, hitems⟩ | ⟨-, hitems⟩
  · rw [hitems] at h
    cases h
  · rw [hitems] at h
    cases h
    exact ⟨rfl, rfl⟩

section Heads

variable {vars : Variables} {is after : List Item} {v : Float} {vs : List Float} {t : Token}

/-- A component starts with a number, a minus or a variable. -/
theorem ColorTerm.head (h : ColorTerm vars is v) :
    ∃ i rest, is = i :: rest ∧ ∀ x, i = .token x → x.isSymbol .minus ∨ x.kind.isNumber := by
  cases h with
  | plain hterm =>
    refine ⟨_, [], rfl, ?_⟩
    cases hterm with
    | literal hkind =>
      rintro x ⟨⟩
      exact .inr hkind
    | bound => nofun
    | unbound => nofun
  | negated hminus hterm =>
    refine ⟨_, [_], rfl, ?_⟩
    rintro x ⟨⟩
    exact .inl hminus

theorem ColorTerms.head (h : ColorTerms vars is vs) :
    ∃ i rest, is = i :: rest ∧ ∀ x, i = .token x → x.isSymbol .minus ∨ x.kind.isNumber := by
  cases h with
  | last hone => exact hone.head
  | more hone _ _ =>
    obtain ⟨i, rest, rfl, hi⟩ := hone.head
    exact ⟨i, _, rfl, hi⟩

/-- What a component starts with is no `=`. -/
theorem not_equal_of_head (h : t.isSymbol .minus ∨ t.kind.isNumber) :
    t.isSymbol .equal = false := by
  obtain ⟨kind, text, position⟩ := t
  rcases h with h | h
  · have hkind : kind = .symbol .minus := by simpa [Token.isSymbol] using h
    simp [Token.isSymbol, hkind]
  · cases kind <;> simp_all [Token.isSymbol, TokenKind.isNumber]

end Heads

namespace Parser

variable {ρ : Type} {s : State ρ} {line : List Token} {e t : Token}

/-! ## Reading components -/

/-- A number term is read from its first token on. -/
theorem magnitude_run (h : OnLine s line e) (ht : t.isSpace = false) {i : Item} {is : List Item}
    {v : Float} (hitems : items (t :: line) = i :: is) (hterm : NumberTerm s.bindings i v) :
    ∃ used more, line = used ++ more ∧ items more = is ∧ EndsInWord (t :: used) ∧
      t.isSymbol .minus = false ∧
      (magnitude t).run s = (.ok v, s.past used (i.warnings s.bindings)) := by
  cases i with
  | token x =>
    obtain ⟨rfl, rfl⟩ := items_of_token ht hitems
    cases hterm with
    | literal hkind hread =>
      have hnumeral : (numeral x : Parser ρ Float) = pure v := by rw [numeral, hread]
      refine ⟨[], line, rfl, rfl, endsInWord_singleton ht, ?_, ?_⟩
      · obtain ⟨kind, text, position⟩ := x
        cases kind <;> simp_all [Token.isSymbol, TokenKind.isNumber]
      · have hmagnitude : (magnitude x : Parser ρ Float) = pure v := by
          rw [← hnumeral]
          unfold magnitude
          obtain ⟨kind, text, position⟩ := x
          cases kind <;> simp_all [TokenKind.isNumber]
        simp [hmagnitude]
  | reference name =>
    obtain ⟨u, more, rfl, hat, hname, rfl, rfl⟩ := exists_name_of_items ht hitems
    have hkind : t.kind = .symbol .atSign := by simpa [Token.isSymbol] using hat
    obtain ⟨after, hrest⟩ := h.rest
    have hword : u.isSpace = false := by simp [Token.isSpace, hname]
    refine ⟨[u], more, rfl, rfl, ⟨[t], u, rfl, hword⟩, by simp [Token.isSymbol, hkind], ?_⟩
    have hlookup : s.bindings.lookupNumber u.text =
        (v, (Item.reference u.text).warnings s.bindings) := by
      cases hterm with
      | bound hbound => simp [Variables.lookupNumber, Item.warnings, Variables.contains, hbound]
      | unbound hnone =>
        simp [Variables.lookupNumber, Item.warnings, Variables.contains, hnone,
          Variables.unsuitable]
    simp [magnitude, hkind, run_bind, variableName_run hrest hname, consult, hlookup, note,
      State.past]

/-- A component is read from its first token on. -/
theorem signedNumber_run (h : OnLine s line e) (ht : t.isSpace = false) {is after : List Item}
    {v : Float} (hitems : items (t :: line) = is ++ after) (hone : ColorTerm s.bindings is v) :
    ∃ used more, line = used ++ more ∧ items more = after ∧ EndsInWord (t :: used) ∧
      (signedNumber t).run s = (.ok v, s.past used (is.flatMap (·.warnings s.bindings))) := by
  cases hone with
  | @plain i _ hterm =>
    obtain ⟨used, more, hline, hmore, hends, hminus, hrun⟩ := magnitude_run h ht hitems hterm
    refine ⟨used, more, hline, hmore, hends, ?_⟩
    simpa [signedNumber, hminus] using hrun
  | @negated m i v hminus hterm =>
    obtain ⟨rfl, hrest⟩ := items_of_token ht hitems
    obtain ⟨pad, u, line, rfl, hpad, hu, hword, -⟩ := exists_word_of_items hrest
    obtain ⟨used, more, rfl, hmore, hends, -, hrun⟩ :=
      magnitude_run (s := s.past (pad ++ [u]) []) h.after_word hu hword hterm
    refine ⟨pad ++ u :: used, more, by simp, hmore, hends.append_left (m :: pad), ?_⟩
    simp [signedNumber, hminus, run_bind, next_word h hpad hu, hrun]

/-- Reads components, after those read already. -/
abbrev componentsFrom (vs : List Float) : Parser ρ (List Float) :=
  separatedFrom .comma signedNumber vs

section Rounds

variable {is after : List Item} {v : Float} {vs : List Float}

/-- The next component of a line is read behind the whitespace before it. -/
theorem component_run (h : OnLine s line e) (hitems : items line = is ++ after)
    (hone : ColorTerm s.bindings is v) :
    ∃ pad t used left, line = pad ++ t :: (used ++ left) ∧ (∀ x ∈ pad, x.isSpace) ∧
      t.isSpace = false ∧ items left = after ∧ EndsInWord (t :: used) ∧
      (signedNumber t).run (s.past (pad ++ [t]) []) =
        (.ok v, s.past (pad ++ t :: used) (is.flatMap (·.warnings s.bindings))) ∧
      OnLine (s.past (pad ++ t :: used) (is.flatMap (·.warnings s.bindings))) left e := by
  obtain ⟨i, rest, rfl, -⟩ := hone.head
  obtain ⟨pad, t, line, rfl, hpad, ht, hword, -⟩ := exists_word_of_items hitems
  obtain ⟨used, left, rfl, hleft, hends, hrun⟩ :=
    signedNumber_run (s := s.past (pad ++ [t]) []) h.after_word ht hword hone
  simp only [State.bindings_past, State.past_past, List.append_assoc, List.singleton_append,
    List.nil_append] at hrun
  exact ⟨pad, t, used, left, rfl, hpad, ht, hleft, hends, hrun,
    OnLine.past (by simpa using h) _⟩

/-- A component that no comma follows is the last. -/
theorem component_last (h : OnLine s line e) (hitems : items line = is ++ after)
    (hone : ColorTerm s.bindings is v)
    (hafter : ∀ t more, after = .token t :: more → t.isSymbol .comma = false) (terms : List Float) :
    ∃ used left, line = used ++ left ∧ items left = after ∧ EndsInWord used ∧
      (componentsFrom terms).run s =
        (.ok (terms ++ [v]), s.past used (is.flatMap (·.warnings s.bindings))) := by
  obtain ⟨pad, t, used, left, rfl, hpad, ht, hleft, hends, hrun, hline⟩ :=
    component_run h hitems hone
  have haccept := accept_other hline (x := .comma) (by simp) fun x is hx =>
    hafter x is (hleft.symm.trans hx)
  exact ⟨pad ++ t :: used, left, by simp, hleft, hends.append_left pad,
    separatedFrom_last h hpad ht hrun haccept⟩

/-- After a component and a comma the next component is read. -/
theorem component_more (h : OnLine s line e) {comma : Token}
    (hitems : items line = is ++ .token comma :: after) (hone : ColorTerm s.bindings is v)
    (hcomma : comma.isSymbol .comma) (terms : List Float) :
    ∃ used left, line = used ++ left ∧ items left = after ∧
      (componentsFrom terms).run s =
        (componentsFrom (terms ++ [v])).run
          (s.past used (is.flatMap (·.warnings s.bindings))) := by
  obtain ⟨pad, t, used, left, rfl, hpad, ht, hleft, -, hrun, hline⟩ :=
    component_run h hitems hone
  obtain ⟨pad', t', left, rfl, hpad', ht', hword', -⟩ := exists_word_of_items hleft
  obtain ⟨rfl, hafter⟩ := items_of_token ht' hword'
  have haccept := accept_word hline hpad' ht' .comma
  rw [if_pos hcomma] at haccept
  refine ⟨pad ++ t :: used ++ (pad' ++ [comma]), left, by simp, hafter, ?_⟩
  rw [separatedFrom_more h hpad ht hrun haccept]
  simp

/-- Components are read off a line that goes on with no further comma. -/
theorem components_run (hall : ColorTerms s.bindings is vs) (h : OnLine s line e)
    (hitems : items line = is ++ after)
    (hafter : ∀ t more, after = .token t :: more → t.isSymbol .comma = false) (terms : List Float) :
    ∃ used left, line = used ++ left ∧ items left = after ∧ EndsInWord used ∧
      (componentsFrom terms).run s =
        (.ok (terms ++ vs), s.past used (is.flatMap (·.warnings s.bindings))) := by
  generalize hvars : s.bindings = vars at hall
  induction hall generalizing s line terms with
  | last hone =>
    subst hvars
    exact component_last h hitems hone hafter terms
  | @more is js comma v vs hone hcomma _ ih =>
    subst hvars
    rw [List.append_assoc, List.cons_append] at hitems
    obtain ⟨used, left, rfl, hleft, hrun⟩ := component_more h hitems hone hcomma terms
    obtain ⟨used', left', rfl, hleft', hends, hrun'⟩ := ih (h.past _) hleft (terms ++ [v]) rfl
    refine ⟨used ++ used', left', by simp, hleft', hends.append_left used, ?_⟩
    rw [hrun, hrun']
    simp

/-- A line may not end where a component is due. -/
theorem components_end (h : OnLine s line e) (hspace : ∀ t ∈ line, t.isSpace)
    (terms : List Float) :
    ∃ u, (componentsFrom terms).run s = (.error (.placed e.position
      (if e.isEndOfFile then .unexpectedEndOfInput else .unexpectedToken e.describe)), u) := by
  have hadvance := h.advance_end hspace
  by_cases hend : s.AtEnd
  · obtain ⟨more, hrest⟩ := h.rest
    have heof : e.isEndOfFile := by
      rw [State.AtEnd, hadvance, State.current_past] at hend
      simpa [hrest] using hend
    refine ⟨s.advance true, (runOverTokens_atEnd hend).trans ?_⟩
    rw [hadvance, State.current_past]
    simp [failAt, heof]
  · have hkind : e.kind = .newline := by
      have hkind : e.kind = .newline ∨ e.kind = .endOfFile := by
        simpa [Token.endsLine] using h.ends
      refine hkind.resolve_right fun heof => hend (.inr ?_)
      rw [hadvance, State.current_past]
      simp [Token.isEndOfFile, heof]
    refine ⟨s.advance true, runOverTokens_error hend ?_⟩
    rw [hadvance, State.current_past]
    simp [separatedRound, run_bind, signedNumber, magnitude, hkind, Token.isSymbol, unexpected,
      failAt]

/-- After a comma another component must stand on the line. -/
theorem components_comma (hall : ColorTerms s.bindings is vs) (h : OnLine s line e) {comma : Token}
    (hcomma : comma.isSymbol .comma) (hitems : items line = is ++ [.token comma])
    (terms : List Float) :
    ∃ u, (componentsFrom terms).run s = (.error (.placed e.position
      (if e.isEndOfFile then .unexpectedEndOfInput else .unexpectedToken e.describe)), u) := by
  generalize hvars : s.bindings = vars at hall
  induction hall generalizing s line terms with
  | last hone =>
    subst hvars
    obtain ⟨used, left, rfl, hleft, hrun⟩ := component_more h hitems hone hcomma terms
    rw [hrun]
    exact components_end (h.past _) (isSpace_of_items_nil hleft) _
  | more hone hcomma' _ ih =>
    subst hvars
    rw [List.append_assoc, List.cons_append] at hitems
    obtain ⟨used, left, rfl, hleft, hrun⟩ := component_more h hitems hone hcomma' terms
    rw [hrun]
    exact ih (h.past _) hleft _ rfl

/-- The `=` before a value is passed, if there is one. -/
theorem optionalEqual_run (h : OnLine s line e) {equal : List Item} (hequal : OptionalEqual equal)
    (hitems : items line = equal ++ is)
    (his : ∀ t more, is = .token t :: more → t.isSymbol .equal = false) :
    ∃ used left, line = used ++ left ∧ items left = is ∧
      optionalEqual.run s = (.ok (), s.past used []) := by
  cases hequal with
  | absent =>
    refine ⟨[], line, rfl, hitems, ?_⟩
    have haccept := accept_other h (x := .equal) (by simp) fun t more ht =>
      his t more (hitems.symm.trans ht)
    simp [optionalEqual, run_bind, haccept]
  | @present x hx =>
    obtain ⟨pad, t, left, rfl, hpad, ht, hword, -⟩ := exists_word_of_items hitems
    obtain ⟨rfl, hleft⟩ := items_of_token ht hword
    have haccept := accept_word h hpad ht .equal
    rw [if_pos hx] at haccept
    exact ⟨pad ++ [x], left, by simp, hleft, by simp [optionalEqual, run_bind, haccept]⟩

end Rounds

/-! ## Colors of a script -/

theorem colorParts_of_components {u w : State ρ} {vs : List Float}
    (hequal : optionalEqual.run s = (.ok (), u)) (hall : (componentsFrom []).run u = (.ok vs, w)) :
    colorParts.run s = (.ok (Color.ofComponents (vs.map Color.component)), w) := by
  rw [colorParts, run_bind_of_ok hequal, separated, run_bind_of_ok hall]
  rfl

theorem colorParts_of_error {u w : State ρ} {x : ScriptError}
    (hequal : optionalEqual.run s = (.ok (), u))
    (hall : (componentsFrom []).run u = (.error x, w)) :
    colorParts.run s = (.error x, w) := by
  rw [colorParts, run_bind_of_ok hequal, separated, run_bind_of_error hall]

section Parts

variable {equal is after : List Item} {vs : List Float}

theorem colorParts_run (h : OnLine s line e) (hitems : items line = equal ++ (is ++ after))
    (hequal : OptionalEqual equal) (hall : ColorTerms s.bindings is vs)
    (hafter : ∀ t more, after = .token t :: more → t.isSymbol .comma = false) :
    ∃ used left, line = used ++ left ∧ items left = after ∧ EndsInWord used ∧
      colorParts.run s = (.ok (Color.ofComponents (vs.map Color.component)),
        s.past used (is.flatMap (·.warnings s.bindings))) := by
  obtain ⟨i, rest, rfl, hi⟩ := hall.head
  obtain ⟨used, left, rfl, hleft, hrun⟩ := optionalEqual_run h hequal hitems fun t more ht =>
    not_equal_of_head (hi t (List.cons_eq_cons.1 ht).1)
  obtain ⟨used', left', rfl, hleft', hends, hrun'⟩ :=
    components_run hall (s := s.past used []) (h.past _) hleft hafter []
  refine ⟨used ++ used', left', by simp, hleft', hends.append_left used, ?_⟩
  rw [State.past_past, List.nil_append, List.nil_append] at hrun'
  exact colorParts_of_components hrun hrun'

/-- The line ends where a component is due. -/
theorem colorParts_end (h : OnLine s line e) (hitems : items line = equal ++ is)
    (hequal : OptionalEqual equal)
    (hdue : is = [] ∨ ∃ js vs comma, is = js ++ [.token comma] ∧ ColorTerms s.bindings js vs ∧
      comma.isSymbol .comma) :
    ∃ u, colorParts.run s = (.error (.placed e.position
      (if e.isEndOfFile then .unexpectedEndOfInput else .unexpectedToken e.describe)), u) := by
  have hhead : ∀ t more, is = .token t :: more → t.isSymbol .equal = false := by
    rintro t more rfl
    rcases hdue with hnil | ⟨js, vs, comma, hjs, hall, -⟩
    · cases hnil
    · obtain ⟨i, rest, rfl, hi⟩ := hall.head
      exact not_equal_of_head (hi t (List.cons_eq_cons.1 hjs).1.symm)
  obtain ⟨used, left, rfl, hleft, hrun⟩ := optionalEqual_run h hequal hitems hhead
  have hline : OnLine (s.past used []) left e := h.past _
  obtain ⟨u, hrun'⟩ : ∃ u, (componentsFrom []).run (s.past used []) = (.error _, u) := by
    rcases hdue with rfl | ⟨js, vs, comma, rfl, hall, hcomma⟩
    · exact components_end hline (isSpace_of_items_nil hleft) []
    · exact components_comma (s := s.past used []) hall hline hcomma hleft []
  exact ⟨u, colorParts_of_error hrun hrun'⟩

/-- At the end of a script nothing is left to read. -/
theorem colorParts_of_rest_nil (hends : Ends s.cursor.tokens) (hrest : s.cursor.rest = []) :
    colorParts.run s = (.error (.placed s.cursor.current.position .unexpectedEndOfInput), s) := by
  have hstay : s.advance true = s := by
    simp only [State.advance, Cursor.Respaced.advance_of_nil hrest]
  have heof := Cursor.current_of_rest_nil hends hrest
  have hkind : s.cursor.current.kind = .endOfFile := by simpa [Token.isEndOfFile] using heof
  have hpeek : s.cursor.peek true = s.cursor.current := by
    rw [Cursor.peek, Cursor.Respaced.advance_of_nil hrest]
  have hequal : optionalEqual.run s = (.ok (), s) := by
    simp [optionalEqual, accept, run_bind, peek, hpeek, Token.isSymbol, hkind]
  have hcomponents : (componentsFrom []).run s =
      (.error (.placed s.cursor.current.position .unexpectedEndOfInput), s) := by
    refine Eq.trans (runOverTokens_atEnd (.inl hrest)) ?_
    rw [hstay]
    rfl
  exact colorParts_of_error hequal hcomponents

end Parts

/-- **A color is all the components on its line.** Let a color be read after the token `n` of a
script, whether line breaks count there or not, and let `e` be the token that ends the line.
- After an `=` or none, let the line go on with components that no further comma follows. All of
  them are read, and nothing behind the last; the color shows them; a variable that is not bound is
  warned of, and nothing else changes.
- If the line ends where a component is due, before the first or after a comma, `e` is refused. -/
theorem color_run (tokens : List Token) (n : Nat) (breaks : Bool) (vars : Variables)
    (journal : Journal) (scene : ρ) :
    let line := (Cursor.within tokens n).restOfLine
    let e := (Cursor.within tokens (n + line.length + 1)).current
    let run := color.run ⟨.after tokens n breaks, vars, journal, scene⟩
    (∀ equal is after vs, items line = equal ++ (is ++ after) → OptionalEqual equal →
      ColorTerms vars is vs → (∀ t more, after = .token t :: more → t.isSymbol .comma = false) →
      ∃ used left c, line = used ++ left ∧ items left = after ∧ EndsInWord used ∧
        Color.Shows c vs ∧
        run = (.ok c, ⟨.after tokens (n + used.length) breaks, vars,
          journal ++ is.flatMap (·.warnings vars), scene⟩)) ∧
    e.endsLine ∧
    ∀ equal is, items line = equal ++ is → OptionalEqual equal →
      (is = [] ∨ ∃ js vs comma, is = js ++ [.token comma] ∧ ColorTerms vars js vs ∧
        comma.isSymbol .comma) →
      ∃ u, run = (.error (.placed e.position
        (if e.isEndOfFile then .unexpectedEndOfInput else .unexpectedToken e.describe)), u) := by
  intro line e run
  have hends : Ends (Cursor.within tokens n).tokens := Cursor.ends_within tokens n
  rcases Cursor.within_cases tokens n with ⟨x, more, hrest, hx⟩ | ⟨hrest, hx⟩
  · have hline : OnLine ⟨.within tokens n, vars, journal, scene⟩ line x :=
      ⟨⟨more, hrest⟩, fun t ht => by simpa using List.mem_takeWhile_imp ht, hx, rfl⟩
    have he : e = x := by
      have hline' : (Cursor.within tokens n).rest = (line ++ [x]) ++ more := by simpa using hrest
      have hafter := Cursor.within_add hline'
      rw [List.length_append, ← Nat.add_assoc, List.length_singleton] at hafter
      simp only [e, hafter]
      simp [Cursor.current]
    refine ⟨fun equal is after vs hitems hequal hall hafter => ?_, by rwa [he],
      fun equal is hitems hequal hdue => ?_⟩
    · obtain ⟨used, left, hsplit, hleft, hword, hparts⟩ :=
        colorParts_run hline hitems hequal hall hafter
      refine ⟨used, left, _, hsplit, hleft, hword, Color.shows_ofComponents vs, ?_⟩
      have hused : (Cursor.within tokens n).rest = used ++ (left ++ x :: more) := by
        rw [hrest, ← List.append_assoc]
        exact congrArg (· ++ x :: more) hsplit
      rw [State.past_within hused] at hparts
      exact run_withLineBreaks (s := ⟨.after tokens n breaks, vars, journal, scene⟩) hparts
    · obtain ⟨u, hparts⟩ := colorParts_end hline hitems hequal hdue
      rw [he]
      exact ⟨_, run_withLineBreaks (s := ⟨.after tokens n breaks, vars, journal, scene⟩) hparts⟩
  · have hline : items line = [] := by simp [line, Cursor.restOfLine, hrest, items]
    have he : e = (Cursor.within tokens n).current := by
      simpa [e, Nat.add_assoc] using Cursor.current_within_add hrest (line.length + 1)
    refine ⟨fun equal is after vs hitems hequal hall hafter => ?_, by rwa [he],
      fun equal is hitems hequal hdue => ?_⟩
    · obtain ⟨i, rest, rfl, -⟩ := hall.head
      simp [hline] at hitems
    · have hparts := colorParts_of_rest_nil (s := ⟨.within tokens n, vars, journal, scene⟩) hends
        hrest
      rw [he, if_pos (Cursor.current_of_rest_nil hends hrest)]
      exact ⟨_, run_withLineBreaks (s := ⟨.after tokens n breaks, vars, journal, scene⟩) hparts⟩

/-- Five components, the last without effect; a single one; and a comma with nothing behind it. -/
theorem color_run_five_and_one :
    let name (text : String) : Token := ⟨.name, text, .start⟩
    let number (text : String) : Token := ⟨.float, text, .start⟩
    let symbol (s : Symbol) : Token := .bare (.symbol s) .start
    let lineFeed : Token := .bare .newline .start
    let tokens := [name "ambient", symbol .equal, number "300.7", symbol .comma, symbol .minus,
      number "2.5", symbol .comma, symbol .atSign, name "sea", symbol .comma, symbol .atSign,
      name "mist", symbol .comma, number "7.0", lineFeed, name "diffuse", number "7.5",
      name "shading", lineFeed, name "specular", number "1.0", symbol .comma, lineFeed]
    let vars := Variables.empty.set "sea" (.number 99.5)
    let stand (n : Nat) : State Unit := ⟨.after tokens n false, vars, [], ()⟩
    (∃ w, color.run (stand 1) = (.ok ⟨255, 0, 99, 0⟩, w) ∧ w.cursor = .after tokens 14 false ∧
        w.journal = [Variables.unknown "mist"]) ∧
      (∃ w, color.run (stand 16) = (.ok ⟨7, 7, 7, 255⟩, w) ∧ w.cursor = .after tokens 17 false ∧
        w.journal = []) ∧
      ∃ w, color.run (stand 20) =
        (.error (.placed .start (.unexpectedToken lineFeed.describe)), w) := by
  intro name number symbol lineFeed tokens vars stand
  have hliteral {text : String} {v : Float} (h : Decimal.read? text = some v) :
      ColorTerm vars [.token (number text)] v := .plain (.literal rfl h)
  refine ⟨?_, ?_, ?_⟩
  · have hfirst : ColorTerm vars [.token (number "300.7")] 300.7 := hliteral (by decide +kernel)
    have hminus : ColorTerm vars [.token (symbol .minus), .token (number "2.5")] (-2.5) :=
      .negated rfl (.literal rfl (by decide +kernel))
    have hsea : ColorTerm vars [.reference "sea"] 99.5 :=
      .plain (.bound (Variables.get?_set_self ..))
    have hmist : ColorTerm vars [.reference "mist"] 0 := .plain (.unbound rfl)
    have hlast : ColorTerm vars [.token (number "7.0")] 7 := hliteral (by decide +kernel)
    have hcomma : (symbol .comma).isSymbol .comma := rfl
    have hall := ColorTerms.more hfirst hcomma (.more hminus hcomma (.more hsea hcomma
      (.more hmist hcomma (.last hlast))))
    obtain ⟨used, left, c, hline, hleft, -, hshows, hrun⟩ := (color_run tokens 1 false vars [] ()).1
      [.token (symbol .equal)] _ [] _ rfl (.present rfl) hall (by simp)
    -- no whitespace stands on the line, so all of it has been read
    have hnil : left = [] := by
      have hwords : ∀ t ∈ (Cursor.within tokens 1).restOfLine, t.isSpace = false := by decide
      rw [hline] at hwords
      refine List.eq_nil_iff_forall_not_mem.2 fun t ht => ?_
      have hspace := isSpace_of_items_nil hleft t ht
      rw [hwords t (List.mem_append_right _ ht)] at hspace
      cases hspace
    rw [hnil, List.append_nil] at hline
    rw [← hline] at hrun
    obtain ⟨hred, hgreen, hblue, halpha⟩ := hshows.more _ _ _ rfl
    have hc : c = ⟨255, 0, 99, 0⟩ := by
      obtain ⟨red, green, blue, alpha⟩ := c
      simp only at hred hgreen hblue halpha
      rw [hred, hgreen, hblue, halpha]
      decide +kernel
    rw [hc] at hrun
    exact ⟨_, hrun, rfl, rfl⟩
  · obtain ⟨used, left, c, hline, hleft, ⟨front, t, hused, -⟩, hshows, hrun⟩ :=
      (color_run tokens 16 false vars [] ()).1 [] [.token (number "7.5")]
        [.token (name "shading")] [7.5] rfl .absent (.last (hliteral (by decide +kernel)))
        (fun t more h => by cases h; rfl)
    -- one token of the two is read, and the other is left
    have hlength : used.length = 1 := by
      have htwo : used.length + left.length = 2 := by
        rw [← List.length_append, ← hline]
        rfl
      have hleft : left ≠ [] := by
        rintro rfl
        simp [items] at hleft
      have := List.length_pos_of_ne_nil hleft
      have hone : used.length = front.length + 1 := by simp [hused]
      omega
    have hc : c = ⟨7, 7, 7, 255⟩ := by
      rw [hshows.one _ rfl]
      decide +kernel
    rw [hlength, hc] at hrun
    exact ⟨_, hrun, rfl, rfl⟩
  · have hall : ColorTerms vars [.token (number "1.0")] [1] :=
      .last (hliteral (by decide +kernel))
    exact (color_run tokens 20 false vars [] ()).2.2 [] _ rfl .absent
      (.inr ⟨_, _, symbol .comma, rfl, hall, rfl⟩)

end Parser

end MaterialScript
