/-
The two readers of strings agree.

A string is read in two places: as the initializer of a variable and as the
value of an attribute. The first reads its line to the end; the second looks
ahead for a `+` and stops before whatever else follows. Term by term they do
the same (`textTerm_run_of_operand`), so wherever an initializer is a string,
an attribute reads that string (`text_run_of_initializer`), and reads it again
through a variable it has been given to.
-/
import MaterialScript.Parser.Value
import MaterialScript.Proofs.Initializers

namespace MaterialScript

/-! ## Expressions -/

namespace Item

/-- The item, wherever it stands. -/
def bare : Item → Item
  | token t => token (.mk t.kind t.text .start)
  | reference name => reference name

@[simp] theorem value?_bare (vars : Variables) (unbound : Value) (i : Item) :
    i.bare.value? vars unbound = i.value? vars unbound := by
  cases i <;> rfl

end Item

section Expressions

variable {vars : Variables} {is js : List Item} {i : Item} {text : String}

theorem joined_cases (h : Joined vars is text) :
    (is = [] ∧ text = "") ∨ ∃ p i more s rest, is = .token p :: i :: more ∧ p.isSymbol .plus ∧
      i.value? vars (.text "") = some (.text s) ∧ Joined vars more rest ∧ text = s ++ rest := by
  cases h with
  | nil => exact .inl ⟨rfl, rfl⟩
  | text hplus hterm hrest =>
    obtain ⟨hsymbol, s, rest, hvalue, hmore, htext⟩ := joined_cons.1 (.text hplus hterm hrest)
    exact .inr ⟨_, _, _, s, rest, rfl, hsymbol, hvalue, hmore, htext⟩
  | unbound hplus hnone hrest =>
    obtain ⟨hsymbol, s, rest, hvalue, hmore, htext⟩ := joined_cons.1 (.unbound hplus hnone hrest)
    exact .inr ⟨_, _, _, s, rest, rfl, hsymbol, hvalue, hmore, htext⟩

/-- The first term of a string is no variable that is not bound, so what stands for those does not
matter. -/
theorem TextTerm.value?_eq (h : TextTerm vars i text) (unbound : Value) :
    i.value? vars unbound = some (.text text) := by
  cases h with
  | literal hkind => simp [Item.value?, hkind]
  | bound hbound => simp [Item.value?, hbound]

theorem denotes_text_iff :
    Denotes vars is (.text text) ↔ ∃ i more s rest, is = i :: more ∧ TextTerm vars i s ∧
      Joined vars more rest ∧ text = s ++ rest := by
  constructor
  · rintro ⟨⟩
    exact ⟨_, _, _, _, rfl, ‹_›, ‹_›, rfl⟩
  · rintro ⟨i, more, s, rest, rfl, hterm, hjoined, rfl⟩
    exact .text hterm hjoined

theorem joined_of_bare_eq (h : Joined vars is text) (heq : js.map Item.bare = is.map Item.bare) :
    Joined vars js text := by
  induction hlength : is.length using Nat.strong_induction_on generalizing is js text with
  | _ length ih =>
  subst hlength
  rcases joined_cases h with ⟨rfl, rfl⟩ | ⟨p, i, more, s, rest, rfl, hplus, hvalue, hmore, rfl⟩
  · obtain rfl : js = [] := by simpa using heq
    exact .nil
  obtain ⟨p', js, rfl, hp, hjs⟩ := List.map_eq_cons_iff.1 heq
  obtain ⟨i', js, rfl, hi, hjs⟩ := List.map_eq_cons_iff.1 hjs
  cases p' with
  | reference name => cases hp
  | token p' =>
    have hkind : p'.kind = p.kind := by
      simp only [Item.bare, Item.token.injEq, Token.mk.injEq] at hp
      exact hp.1
    have hvalue' : i'.value? vars (.text "") = some (.text s) := by
      rw [← Item.value?_bare, hi, Item.value?_bare, hvalue]
    have hrest : Joined vars js rest := ih more.length
      (by simp only [List.length_cons]; omega) hmore hjs rfl
    refine joined_cons.2 ⟨?_, s, rest, hvalue', hrest, rfl⟩
    rwa [Token.isSymbol, hkind]

/-- What an expression denotes does not depend on where it stands. -/
theorem denotes_of_bare_eq (h : Denotes vars is (.text text))
    (heq : js.map Item.bare = is.map Item.bare) : Denotes vars js (.text text) := by
  obtain ⟨i, more, s, rest, rfl, hterm, hjoined, rfl⟩ := denotes_text_iff.1 h
  obtain ⟨i', js, rfl, hi, hjs⟩ := List.map_eq_cons_iff.1 heq
  have hterm' : TextTerm vars i' s := by
    rw [Item.textTerm_iff, ← Item.value?_bare, hi, Item.value?_bare]
    exact hterm.value?_eq _
  exact .text hterm' (joined_of_bare_eq hjoined hjs)

end Expressions

namespace Parser

variable {ρ α : Type}

/-! ## Terms -/

section Runs

variable {s : State ρ} {line pad more : List Token} {e t : Token}

/-- Where an initializer reads a string, an attribute reads the same one in the same way, if a
variable that is not bound stands for no other string than the empty one. -/
theorem textTerm_run_of_operand {unbound : Value} {v : String} {u : State ρ}
    (hunbound : ∀ x, unbound = .text x → x = "")
    (h : (operand unbound t).run s = (.ok (.text v), u)) : (textTerm t).run s = (.ok v, u) := by
  unfold operand at h
  unfold textTerm
  split at h
  · obtain ⟨x, w, -, hrun⟩ := run_bind_eq_ok h
    cases hrun
  · obtain ⟨x, w, -, hrun⟩ := run_bind_eq_ok h
    cases hrun
  · cases h
    simp_all
  · rename_i hkind
    obtain ⟨name, w, hname, hrun⟩ := run_bind_eq_ok h
    obtain ⟨found, w', hconsult, hrun⟩ := run_bind_eq_ok hrun
    cases hconsult
    have hlookup : (consult (·.lookupText name)).run w = (.ok (w.bindings.lookupText name), w) :=
      rfl
    simp only [hkind, run_bind, hname, hlookup]
    cases hget : w.bindings.get? name with
    | none =>
      simp only [hget] at hrun
      obtain ⟨_, w', hnote, hrun⟩ := run_bind_eq_ok hrun
      cases hrun
      cases hnote
      rw [hunbound _ rfl]
      simp [Variables.lookupText, hget, note, Variables.unsuitable]
    | some value =>
      simp only [hget] at hrun
      cases hrun
      simp [Variables.lookupText, hget, note]
  · simp [failAt] at h

/-- A separator is accepted where it is the next word of the line. -/
theorem accept_word (h : OnLine s (pad ++ t :: more) e) (hpad : ∀ x ∈ pad, x.isSpace)
    (ht : t.isSpace = false) (x : Symbol) :
    (accept x).run s =
      if t.isSymbol x then (.ok true, s.past (pad ++ [t]) []) else (.ok false, s) := by
  have hadvance := h.advance_word hpad ht
  have hpeek : peek.run s = (.ok t, s) := by
    have hcurrent : (s.advance true).cursor.current = t := by rw [hadvance, State.current_past]
    simp only [peek, Cursor.peek]
    rw [show s.cursor.advance true = (s.advance true).cursor from rfl, hcurrent]
  rw [accept, run_bind, hpeek]
  by_cases hx : t.isSymbol x <;> simp [hx, run_bind, take, hadvance]

/-- No separator is accepted at the end of a line. -/
theorem accept_end (h : OnLine s line e) (hspace : ∀ t ∈ line, t.isSpace) (x : Symbol) :
    (accept x).run s = (.ok false, s) := by
  have hpeek : peek.run s = (.ok e, s) := by
    have hcurrent : (s.advance true).cursor.current = e := by
      rw [h.advance_end hspace, State.current_past]
    simp only [peek, Cursor.peek]
    rw [show s.cursor.advance true = (s.advance true).cursor from rfl, hcurrent]
  have hx : e.isSymbol x = false := by
    have hkind : e.kind = .newline ∨ e.kind = .endOfFile := by simpa [Token.endsLine] using h.ends
    rcases hkind with hkind | hkind <;> simp [Token.isSymbol, hkind]
  rw [accept, run_bind, hpeek]
  simp [hx]

/-- A line that has an item has a first word. -/
theorem exists_word_of_items {i : Item} {is : List Item} (hitems : items line = i :: is) :
    ∃ pad t more, line = pad ++ t :: more ∧ (∀ x ∈ pad, x.isSpace) ∧ t.isSpace = false ∧
      items (t :: more) = i :: is ∧ i.StartsWith t := by
  rcases line_cases line with hspace | ⟨pad, t, more, rfl, hpad, ht⟩
  · simp [items_eq_nil hspace] at hitems
  · rw [items_append_of_isSpace hpad] at hitems
    obtain ⟨i', is', hcons, hstarts⟩ := exists_items_cons ht more
    obtain ⟨rfl, rfl⟩ := List.cons_eq_cons.1 (hcons.symm.trans hitems)
    exact ⟨pad, t, more, rfl, hpad, ht, hitems, hstarts⟩

theorem isSpace_of_items_nil (hitems : items line = []) : ∀ t ∈ line, t.isSpace := by
  rcases line_cases line with hspace | ⟨pad, t, more, rfl, hpad, ht⟩
  · exact hspace
  · obtain ⟨i, is, hcons, -⟩ := exists_items_cons ht more
    rw [items_append_of_isSpace hpad, hcons] at hitems
    cases hitems

/-- The item a line starts with is read as one term. -/
theorem textTerm_run (h : OnLine s line e) (ht : t.isSpace = false) {i : Item} {is : List Item}
    {v : String} (hitems : items (t :: line) = i :: is)
    (hvalue : i.value? s.bindings (.text "") = some (.text v)) :
    ∃ used more, line = used ++ more ∧ items more = is ∧
      (textTerm t).run s = (.ok v, s.past used (i.warnings s.bindings)) := by
  obtain ⟨i', used, more, rfl, hcons, -, hoperand⟩ := operand_run h ht (.text "")
  obtain ⟨rfl, rfl⟩ := List.cons_eq_cons.1 (hcons.symm.trans hitems)
  have hrun := (hoperand (.text v) _).2 ⟨hvalue, rfl⟩
  exact ⟨used, more, rfl, rfl, textTerm_run_of_operand (fun x hx => (Value.text.inj hx).symm) hrun⟩

/-! ## Terms with a separator -/

/-- A term that no separator follows is the last. -/
theorem separatedFrom_last (h : OnLine s (pad ++ t :: more) e) (hpad : ∀ x ∈ pad, x.isSpace)
    (ht : t.isSpace = false) {separator : Symbol} {term : Token → Parser ρ α} {a : α} {u : State ρ}
    {terms : List α} (hterm : (term t).run (s.past (pad ++ [t]) []) = (.ok a, u))
    (haccept : (accept separator).run u = (.ok false, u)) :
    (separatedFrom separator term terms).run s = (.ok (terms ++ [a]), u) := by
  refine runOverTokens_done (not_atEnd_of_word h hpad ht) ?_
  rw [h.advance_word hpad ht, State.current_past]
  simp [separatedRound, run_bind, hterm, haccept]

/-- After a term and a separator the next term is read. -/
theorem separatedFrom_more (h : OnLine s (pad ++ t :: more) e) (hpad : ∀ x ∈ pad, x.isSpace)
    (ht : t.isSpace = false) {separator : Symbol} {term : Token → Parser ρ α} {a : α}
    {u w : State ρ} {terms : List α}
    (hterm : (term t).run (s.past (pad ++ [t]) []) = (.ok a, u))
    (haccept : (accept separator).run u = (.ok true, w)) :
    (separatedFrom separator term terms).run s =
      (separatedFrom separator term (terms ++ [a])).run w := by
  refine runOverTokens_more (not_atEnd_of_word h hpad ht) ?_
  rw [h.advance_word hpad ht, State.current_past]
  simp [separatedRound, run_bind, hterm, haccept]

/-- A separator is not accepted on a line that goes on otherwise. -/
theorem accept_other (h : OnLine s line e) {x : Symbol} (hx : x ≠ .atSign)
    (hother : ∀ t is, items line = .token t :: is → t.isSymbol x = false) :
    (accept x).run s = (.ok false, s) := by
  rcases hitems : items line with _ | ⟨i, is⟩
  · exact accept_end h (isSpace_of_items_nil hitems) x
  · obtain ⟨pad, t, more, rfl, hpad, ht, -, hstarts⟩ := exists_word_of_items hitems
    rw [accept_word h hpad ht, if_neg]
    cases i with
    | token y =>
      obtain rfl : y = t := hstarts
      simp [hother y is hitems]
    | reference name =>
      have hkind : t.kind = .symbol .atSign := by
        simpa [Item.StartsWith, Token.isSymbol] using hstarts
      simp [Token.isSymbol, hkind, hx.symm]

/-! ## Strings -/

/-- Reads strings joined by `+`, after those read already. -/
abbrev stringsFrom (terms : List String) : Parser ρ (List String) :=
  separatedFrom .plus textTerm terms

/-- Terms are read off a line that joins them, as far as no other `+` follows. -/
theorem stringsFrom_run (h : OnLine s line e) {i : Item} {is after : List Item}
    {first rest : String} (hitems : items line = i :: (is ++ after))
    (hfirst : i.value? s.bindings (.text "") = some (.text first))
    (hrest : Joined s.bindings is rest)
    (hafter : ∀ t more, after = .token t :: more → t.isSymbol .plus = false)
    (terms : List String) :
    ∃ used left more, line = used ++ left ∧ items left = after ∧
      String.join more = first ++ rest ∧
      (stringsFrom terms).run s =
        (.ok (terms ++ more), s.past used ((i :: is).flatMap (·.warnings s.bindings))) := by
  induction hlength : line.length using Nat.strong_induction_on
    generalizing line s i is first rest terms with
  | _ length ih =>
  subst hlength
  obtain ⟨pad, t, line, rfl, hpad, ht, hword, -⟩ := exists_word_of_items hitems
  obtain ⟨used, left, rfl, hleft, hterm⟩ :=
    textTerm_run (s := s.past (pad ++ [t]) []) h.after_word ht hword hfirst
  simp only [State.bindings_past, State.past_past, List.append_assoc, List.singleton_append,
    List.nil_append] at hterm
  have hline : OnLine (s.past (pad ++ t :: used) (i.warnings s.bindings)) left e :=
    OnLine.past (by simpa using h) _
  rcases joined_cases hrest with ⟨rfl, rfl⟩ | ⟨p, j, js, s', rest, rfl, hplus, hvalue, hmore, rfl⟩
  · have haccept := accept_other hline (x := .plus) (by simp) fun x is hx =>
      hafter x is (hleft.symm.trans hx)
    exact ⟨pad ++ t :: used, left, [first], by simp, hleft, by simp,
      by simpa using separatedFrom_last h hpad ht hterm haccept⟩
  · obtain ⟨pad', t', line', rfl, hpad', ht', hword', hstarts⟩ := exists_word_of_items hleft
    obtain rfl : p = t' := hstarts
    have hkind : p.kind = .symbol .plus := by simpa [Token.isSymbol] using hplus
    have hitems' : items line' = j :: (js ++ after) := by
      rw [items_cons ht' fun u _ => by simp [Token.refersTo, Token.isSymbol, hkind]] at hword'
      exact (List.cons_eq_cons.1 hword').2
    have haccept := accept_word hline hpad' ht' .plus
    rw [if_pos hplus] at haccept
    obtain ⟨used', left', more, rfl, hleft', hjoin, hrun⟩ :=
      ih line'.length (by simp; omega) hline.after_word hitems' hvalue hmore (terms ++ [first]) rfl
    refine ⟨pad ++ t :: used ++ (pad' ++ p :: used'), left', first :: more, by simp, hleft', ?_, ?_⟩
    · simp [hjoin]
    · rw [separatedFrom_more h hpad ht hterm haccept, hrun]
      simp

/-- A string value is read off a line that starts with what denotes it. -/
theorem text_run {s : State ρ} (h : OnLine (s.setLineBreaks true) line e) {is after : List Item}
    {v : String} (hitems : items line = is ++ after) (hdenotes : Denotes s.bindings is (.text v))
    (hafter : ∀ t more, after = .token t :: more → t.isSymbol .plus = false) :
    ∃ used left, line = used ++ left ∧ items left = after ∧
      text.run s =
        (.ok v, ((s.setLineBreaks true).past used
          (is.flatMap (·.warnings s.bindings))).setLineBreaks s.cursor.lineBreaksCount) := by
  obtain ⟨i, is, first, rest, rfl, hterm, hjoined, rfl⟩ := denotes_text_iff.1 hdenotes
  have hvalue := hterm.value?_eq (.text "")
  obtain ⟨pad, t, more, rfl, hpad, ht, -, hstarts⟩ := exists_word_of_items hitems
  have hequal : (accept .equal).run (s.setLineBreaks true) = (.ok false, s.setLineBreaks true) := by
    rw [accept_word h hpad ht, if_neg]
    cases hterm with
    | literal hkind =>
      obtain rfl : _ = t := hstarts
      simp [Token.isSymbol, hkind]
    | bound hbound =>
      have hkind : t.kind = .symbol .atSign := by
        simpa [Item.StartsWith, Token.isSymbol] using hstarts
      simp [Token.isSymbol, hkind]
  obtain ⟨used, left, terms, hline, hleft, hjoin, hrun⟩ :=
    stringsFrom_run h hitems hvalue hjoined hafter []
  have hinner : (optionalEqual >>= fun _ => stringsFrom [] >>= fun terms =>
      pure (String.join terms)).run (s.setLineBreaks true) =
        (.ok (first ++ rest), (s.setLineBreaks true).past used
          ((i :: is).flatMap (·.warnings s.bindings))) := by
    rw [optionalEqual, run_bind, run_bind, hequal]
    simp only [run_pure]
    rw [run_bind, hrun]
    simp [hjoin, State.setLineBreaks]
  refine ⟨used, left, hline, hleft, ?_⟩
  exact run_withLineBreaks hinner

/-- The name of a definition stands right after its `@`, and its initializer after the `=`. -/
theorem variableDefinition_run {s : State ρ} {x equal : Token}
    (h : OnLine (s.setLineBreaks true) (x :: (pad ++ equal :: line)) e) (hname : x.kind = .name)
    (hpad : ∀ t ∈ pad, t.isSpace) (hequal : equal.isSymbol .equal) {v : Value}
    (hdenotes : Denotes s.bindings (items line) v) :
    ∃ u, variableDefinition.run s = (.ok (), u) ∧ u.bindings = s.bindings.set x.text v := by
  obtain ⟨more, hrest⟩ := h.rest
  -- the warning of a second definition, if the name is taken
  obtain ⟨notices, hnote⟩ : ∃ notices, (noteIf (s.bindings.contains x.text)
      [.warning ("Multiple definition of variable named \"" ++ x.text ++ "\"")]).run
        ((s.setLineBreaks true).past [x] []) =
          (.ok (), (s.setLineBreaks true).past [x] notices) := by
    cases s.bindings.contains x.text
    · exact ⟨[], by simp [noteIf, Parser.pure]⟩
    · exact ⟨_, by simp [noteIf, note, State.past]; rfl⟩
  have hline : OnLine ((s.setLineBreaks true).past [x] notices) (pad ++ equal :: line) e := h.past _
  have hspace : equal.isSpace = false := by
    have hkind : equal.kind = .symbol .equal := by simpa [Token.isSymbol] using hequal
    simp [Token.isSpace, hkind]
  have hinitializer := (initializer_eq_ok_iff hline.after_word).2 ⟨hdenotes, rfl⟩
  have hdefinition : ∃ u, definitionLine.run (s.setLineBreaks true) = (.ok (), u) ∧
      u.bindings = s.bindings.set x.text v := by
    rw [definitionLine, run_bind, variableName_run hrest hname]
    simp only [run_bind, consult, State.bindings_past]
    rw [show (s.setLineBreaks true).bindings = s.bindings from rfl, hnote]
    simp only [next_word hline hpad hspace, hequal, if_true, run_bind, hinitializer, setVariable]
    exact ⟨_, rfl, rfl⟩
  obtain ⟨u, hrun, hbindings⟩ := hdefinition
  exact ⟨_, run_withLineBreaks hrun, hbindings⟩

end Runs

end Parser

/-! ## Strings of a script -/

namespace Cursor

/-- The cursor after the first `n` tokens of a script. -/
def after (tokens : List Token) (n : Nat) (lineBreaksCount : Bool) : Cursor :=
  { within tokens n with lineBreaksCount }

/-- What is left of the line is `name = expression`, as it stands after the `@` of a definition. -/
def Defines (c : Cursor) (name : String) (expression : List Item) : Prop :=
  ∃ x pad equal line, c.restOfLine = x :: (pad ++ equal :: line) ∧ x.kind = .name ∧
    x.text = name ∧ (∀ t ∈ pad, t.isSpace) ∧ equal.isSymbol .equal ∧
    (items line).map Item.bare = expression.map Item.bare

/-- What is left of the line starts with a reference to `name`, which no `+` follows. -/
def Refers (c : Cursor) (name : String) : Prop :=
  ∃ more, items c.restOfLine = .reference name :: more ∧
    ∀ t rest, more = .token t :: rest → t.isSymbol .plus = false

end Cursor

namespace Parser

variable {ρ : Type}

/-- A script that has something left on its line stands on that line. -/
theorem exists_onLine {tokens : List Token} {n : Nat}
    (hrest : (Cursor.within tokens n).restOfLine ≠ []) (vars : Variables) (journal : Journal)
    (scene : ρ) :
    ∃ e, OnLine ⟨.within tokens n, vars, journal, scene⟩ (Cursor.within tokens n).restOfLine e := by
  rcases Cursor.within_cases tokens n with ⟨e, more, hline, hends⟩ | ⟨hnil, -⟩
  · exact ⟨e, ⟨more, hline⟩, fun t ht => by simpa using List.mem_takeWhile_imp ht, hends, rfl⟩
  · simp [Cursor.restOfLine, hnil] at hrest

/-- **The two readers of strings agree.** Let an initializer that follows the token `n` of a script,
which may be an `=`, be the string `v`.
- An attribute that reads a string from the same place, whether line breaks count there or not,
  reads `v` and adds the same notices. From where it ends, one step over whitespace but not over
  line breaks leads to where the initializer ends: to the end of the line.
- Let a definition of `name` anywhere have the same expression as its initializer. It is read, and
  an attribute that then refers to `name`, anywhere, reads `v` and adds no notice. -/
theorem text_run_of_initializer {tokens : List Token} {n : Nat} {vars : Variables}
    {journal : Journal} {scene : ρ} {v : String} {u : State ρ}
    (h : initializer.run ⟨.within tokens n, vars, journal, scene⟩ = (.ok (.text v), u)) :
    (∀ breaks, ∃ w, text.run ⟨.after tokens n breaks, vars, journal, scene⟩ = (.ok v, w) ∧
      w.cursor.lineBreaksCount = breaks ∧ (w.setLineBreaks true).advance true = u) ∧
    u.cursor.current.endsLine ∧
    ∀ tokens' m name,
      (Cursor.within tokens' m).Defines name (items (Cursor.within tokens n).restOfLine) →
      ∀ breaks journal' (scene' : ρ), ∃ d,
        variableDefinition.run ⟨.after tokens' m breaks, vars, journal', scene'⟩ = (.ok (), d) ∧
        ∀ tokens'' k, (Cursor.within tokens'' k).Refers name →
          ∀ breaks journal'' (scene'' : ρ), ∃ w,
            text.run ⟨.after tokens'' k breaks, d.bindings, journal'', scene''⟩ = (.ok v, w) ∧
            w.journal = journal'' := by
  have hdenotes := (((initializer_run tokens n vars journal scene).1 _ _).1 h).1
  have hgoes : (Cursor.within tokens n).restOfLine ≠ [] := by
    intro hnil
    rw [hnil] at hdenotes
    exact not_denotes_nil hdenotes
  obtain ⟨e, hline⟩ := exists_onLine hgoes vars journal scene
  obtain ⟨-, rfl⟩ := (initializer_eq_ok_iff hline).1 h
  refine ⟨fun breaks => ?_, ?_, fun tokens' m name hdefines breaks journal' scene' => ?_⟩
  · obtain ⟨used, left, hsplit, hleft, hrun⟩ :=
      text_run (s := ⟨.after tokens n breaks, vars, journal, scene⟩) hline
        (List.append_nil _).symm hdenotes (by simp)
    refine ⟨_, hrun, rfl, ?_⟩
    rw [hsplit] at hline ⊢
    have hstep := (hline.past ((items (used ++ left)).flatMap (·.warnings vars))).advance_end
      (isSpace_of_items_nil hleft)
    rw [State.past_past, ← List.append_assoc, List.append_nil] at hstep
    exact hstep
  · rw [State.current_past]
    exact hline.ends
  · obtain ⟨x, pad, equal, line, hrest, hname, rfl, hpad, hequal, hsame⟩ := hdefines
    have hgoes : (Cursor.within tokens' m).restOfLine ≠ [] := by simp [hrest]
    obtain ⟨e, hline⟩ := exists_onLine hgoes vars journal' scene'
    rw [hrest] at hline
    obtain ⟨d, hrun, hbindings⟩ :=
      variableDefinition_run (s := ⟨.after tokens' m breaks, vars, journal', scene'⟩) hline hname
        hpad hequal (denotes_of_bare_eq hdenotes hsame)
    refine ⟨d, hrun, fun tokens'' k hrefers breaks journal'' scene'' => ?_⟩
    obtain ⟨more, hitems, hmore⟩ := hrefers
    have hbound : d.bindings.get? x.text = some (.text v) := by
      rw [hbindings, Variables.get?_set_self]
    have hvalue : Denotes d.bindings [.reference x.text] (.text v) := by
      simpa using Denotes.text (.bound hbound) .nil
    have hgoes : (Cursor.within tokens'' k).restOfLine ≠ [] := by
      intro hnil
      simp [hnil, items] at hitems
    obtain ⟨e, hline⟩ := exists_onLine hgoes d.bindings journal'' scene''
    obtain ⟨used, left, -, -, hrun⟩ :=
      text_run (s := ⟨.after tokens'' k breaks, d.bindings, journal'', scene''⟩) hline
        hitems hvalue hmore
    refine ⟨_, hrun, ?_⟩
    simp [State.setLineBreaks, State.past, Item.warnings, Variables.contains, hbound]

/-- A string read as the value of a key, and through a variable: a line with `label`, a definition
of `t` with the same expression, and a line `label @t`. -/
theorem text_run_of_initializer_unknown_variable :
    let name (text : String) : Token := ⟨.name, text, .start⟩
    let symbol (s : Symbol) : Token := .bare (.symbol s) .start
    let lineFeed : Token := .bare .newline .start
    let expression := [.bare .blank .start, ⟨.string, "sea", .start⟩, symbol .plus, symbol .atSign,
      name "tide", symbol .plus, ⟨.string, "wall", .start⟩]
    let tokens := [name "label", symbol .equal] ++ expression ++
      [lineFeed, symbol .atSign, name "t", symbol .equal] ++ expression ++
      [lineFeed, name "label", symbol .atSign, name "t", lineFeed]
    let stand (n : Nat) (vars : Variables) : State Unit := ⟨.after tokens n false, vars, [], ()⟩
    ∃ w, text.run (stand 2 .empty) = (.ok "seawall", w) ∧
      w.journal = [Variables.unknown "tide"] ∧ ∃ d,
        variableDefinition.run (stand 11 .empty) = (.ok (), d) ∧ ∃ r,
          text.run (stand 22 d.bindings) = (.ok "seawall", r) ∧ r.journal = [] := by
  intro name symbol lineFeed expression tokens stand
  have hwall : Joined .empty [.token (symbol .plus), .token ⟨.string, "wall", .start⟩] "wall" :=
    .text rfl (.literal rfl) .nil
  have htide : Variables.empty.get? "tide" = none := rfl
  have hdenotes : Denotes .empty (items (Cursor.within tokens 2).restOfLine) (.text "seawall") :=
    .text (.literal (t := ⟨.string, "sea", .start⟩) rfl) (.unbound rfl htide hwall)
  obtain ⟨hsame, -, hvariable⟩ := text_run_of_initializer
    (((initializer_run tokens 2 .empty [] ()).1 _ _).2 ⟨hdenotes, rfl⟩)
  obtain ⟨w, hrun, -, hends⟩ := hsame false
  have hdefines :
      (Cursor.within tokens 11).Defines "t" (items (Cursor.within tokens 2).restOfLine) :=
    ⟨name "t", [], symbol .equal, expression, rfl, rfl, rfl, by simp, rfl, rfl⟩
  obtain ⟨d, hdefinition, hrefers⟩ := hvariable tokens 11 "t" hdefines false [] ()
  obtain ⟨r, hread, hjournal⟩ := hrefers tokens 22 ⟨[], rfl, by simp⟩ false [] ()
  have hstand : stand 11 .empty = ⟨.after tokens 11 false, .empty, [], ()⟩ := rfl
  refine ⟨w, hrun, congrArg State.journal hends, d, ?_, r, hread, hjournal⟩
  rw [hstand]
  exact hdefinition

end Parser

end MaterialScript
