/-
Blanks and tabs make no difference to a load.

`Spaced before ts us`: `us` is `ts` with blanks and tabs put in, none of them
right after an `@` and none after the last token. Only one step of the reader
does not skip whitespace, the one from an `@` to the name of its variable; so a
parser goes the same way over both sequences (`Blind`), with one condition:
where it reads such a name it must stand on the `@`. The rules follow the
operations of `Parser.Basic`, then the parsers in the order of the grammar.
-/
import MaterialScript.Loader
import MaterialScript.Proofs.Composition
import MaterialScript.Proofs.Reading
import MaterialScript.RenderSystem.Recorder

namespace MaterialScript

/-- A blank or a tab. -/
def Token.isSpace (t : Token) : Bool := t.kind == .blank || t.kind == .tab

theorem Token.kind_of_isSpace {t : Token} (h : t.isSpace) : t.kind = .blank ∨ t.kind = .tab := by
  simpa [isSpace] using h

/-- Blanks and tabs are skipped, whether line breaks count or not. -/
theorem Cursor.skipsWhen_of_isSpace {t : Token} (h : t.isSpace) (m : Bool) : skipsWhen m t := by
  rcases Token.kind_of_isSpace h with hkind | hkind <;> simp [skipsWhen, hkind]

/-- Blanks and tabs have been put into a sequence that goes on after the token `before`, but none
right after an `@` and none at its end. -/
inductive Spaced : Token → List Token → List Token → Prop
  | nil (before : Token) : Spaced before [] []
  | keep {before : Token} (t : Token) {ts us : List Token} :
      Spaced t ts us → Spaced before (t :: ts) (t :: us)
  | space {before : Token} (b : Token) {ts us : List Token} (hb : b.isSpace)
      (hbefore : before.isSymbol .atSign = false) (hmore : ts ≠ []) :
      Spaced b ts us → Spaced before ts (b :: us)

/-- If anything is left, the end of the file is last. -/
def EndsLast (ts : List Token) : Prop := ∀ e ∈ ts.getLast?, e.isEndOfFile

theorem EndsLast.of_cons {t : Token} {ts : List Token} (h : EndsLast (t :: ts)) : EndsLast ts := by
  cases ts with
  | nil => simp [EndsLast]
  | cons u ts => simpa [EndsLast, List.getLast?_cons_cons] using h

/-- Whitespace is not last. -/
theorem EndsLast.ne_nil_of_skipsWhen {m : Bool} {t : Token} {ts : List Token}
    (h : EndsLast (t :: ts)) (hskip : Cursor.skipsWhen m t) : ts ≠ [] := by
  rintro rfl
  have heof : t.isEndOfFile := h t (by simp)
  rw [Cursor.not_skipsWhen_of_isEndOfFile heof] at hskip
  cases hskip

namespace Spaced

variable {before : Token} {ts us : List Token}

theorem eq_nil_iff (h : Spaced before ts us) : us = [] ↔ ts = [] := by
  cases h with
  | nil => simp
  | keep t h => simp
  | space b hb hbefore hmore h => simp [hmore]

theorem getLast?_eq (h : Spaced before ts us) : us.getLast? = ts.getLast? := by
  induction h with
  | nil => rfl
  | keep t h ih =>
    rename_i ts us
    cases ts with
    | nil =>
      have hus : us = [] := h.eq_nil_iff.2 rfl
      rw [hus]
    | cons t' ts =>
      cases us with
      | nil => exact absurd (h.eq_nil_iff.1 rfl) (by simp)
      | cons u us => simpa [List.getLast?_cons_cons] using ih
  | space b hb hbefore hmore h ih =>
    rename_i ts us
    cases us with
    | nil => exact absurd (h.eq_nil_iff.1 rfl) hmore
    | cons u us => rw [List.getLast?_cons_cons, ih]

/-- A step that skips whitespace leads to the same token. -/
theorem passOver (m : Bool) (h : Spaced before ts us) (hlast : EndsLast ts) (hmore : ts ≠ [])
    (passed passed' : List Token) :
    ∃ t behind behind' ts' us',
      Cursor.passOver (Cursor.skipsWhen m) passed ts = (t :: behind, ts') ∧
      Cursor.passOver (Cursor.skipsWhen m) passed' us = (t :: behind', us') ∧
      Spaced t ts' us' ∧ EndsLast ts' := by
  induction h generalizing passed passed' with
  | nil => exact absurd rfl hmore
  | keep t h ih =>
    rename_i ts us
    by_cases hskip : Cursor.skipsWhen m t
    · have hts : ts ≠ [] := hlast.ne_nil_of_skipsWhen hskip
      obtain ⟨t', behind, behind', ts', us', hrun, hrun', hrest⟩ :=
        ih hlast.of_cons hts (t :: passed) (t :: passed')
      refine ⟨t', behind, behind', ts', us', ?_, ?_, hrest⟩
      · rw [Cursor.passOver, if_pos hskip, hrun]
      · rw [Cursor.passOver, if_pos hskip, hrun']
    · refine ⟨t, passed, passed', ts, us, ?_, ?_, h, hlast.of_cons⟩
      · rw [Cursor.passOver, if_neg hskip]
      · rw [Cursor.passOver, if_neg hskip]
  | space b hb hbefore hne h ih =>
    obtain ⟨t, behind, behind', ts', us', hrun, hrun', hrest⟩ := ih hlast hne passed (b :: passed')
    refine ⟨t, behind, behind', ts', us', hrun, ?_, hrest⟩
    rw [Cursor.passOver, if_pos (Cursor.skipsWhen_of_isSpace hb m), hrun']

/-- Spaces are no brackets. -/
theorem checkAfter (h : Spaced before ts us) (stack : List (Token × Symbol)) :
    Brackets.checkAfter stack us = Brackets.checkAfter stack ts := by
  induction h generalizing stack with
  | nil => rfl
  | keep t h ih =>
    simp only [Brackets.checkAfter]
    split
    · exact ih stack
    · split
      · exact ih _
      · split
        · exact ih stack
        · split
          · split
            · exact ih _
            · rfl
          · rfl
  | space b hb hbefore hmore h ih =>
    have hnone : Brackets.symbol? b = none := by
      rcases Token.kind_of_isSpace hb with hkind | hkind <;> simp [Brackets.symbol?, hkind]
    rw [Brackets.checkAfter.eq_def]
    simp only [hnone]
    exact ih stack

theorem declaresNothing (h : Spaced before ts us) :
    Loader.declaresNothing us = Loader.declaresNothing ts := by
  induction h with
  | nil => rfl
  | keep t h ih =>
    simp only [Loader.declaresNothing, List.all_cons] at ih ⊢
    rw [ih]
  | space b hb hbefore hmore h ih =>
    have hspace : b.kind.isWhitespace := by
      rcases Token.kind_of_isSpace hb with hkind | hkind <;> simp [TokenKind.isWhitespace, hkind]
    simp only [Loader.declaresNothing, List.all_cons, hspace, Bool.true_or, Bool.true_and] at ih ⊢
    exact ih

end Spaced

/-- Two cursors on the same token; what comes differs in blanks and tabs. -/
structure Cursor.Respaced (c d : Cursor) : Prop where
  current : d.current = c.current
  rest : Spaced c.current c.rest d.rest
  last : EndsLast c.rest
  lineBreaks : d.lineBreaksCount = c.lineBreaksCount

namespace Cursor.Respaced

variable {c d : Cursor}

/-- Where nothing is left, nobody moves. -/
theorem advance_of_nil (hrest : c.rest = []) (b : Bool) : c.advance b = c := by
  obtain ⟨passed, rest, m⟩ := c
  cases hrest
  rfl

theorem advance (h : c.Respaced d) : (c.advance true).Respaced (d.advance true) := by
  by_cases hrest : c.rest = []
  · have hrest' : d.rest = [] := h.rest.eq_nil_iff.2 hrest
    rw [advance_of_nil hrest, advance_of_nil hrest']
    exact h
  · obtain ⟨t, behind, behind', ts', us', hrun, hrun', hspaced, hlast⟩ :=
      h.rest.passOver c.lineBreaksCount h.last hrest c.passed d.passed
    have hc : c.advance true = ⟨t :: behind, ts', c.lineBreaksCount⟩ := by
      have hskip : c.skipped true = skipsWhen c.lineBreaksCount := by
        funext x
        simp [skipped, skips]
      simp only [Cursor.advance, hskip, hrun]
    have hd : d.advance true = ⟨t :: behind', us', c.lineBreaksCount⟩ := by
      have hskip : d.skipped true = skipsWhen c.lineBreaksCount := by
        funext x
        simp [skipped, skips, h.lineBreaks]
      simp only [Cursor.advance, hskip, hrun', h.lineBreaks]
    rw [hc, hd]
    exact ⟨rfl, hspaced, hlast, rfl⟩

/-- Right after an `@` stands the same token. -/
theorem advance_false (h : c.Respaced d) (hat : c.current.isSymbol .atSign) :
    (c.advance false).Respaced (d.advance false) := by
  obtain ⟨passed, rest, m⟩ := c
  obtain ⟨passed', rest', m'⟩ := d
  obtain ⟨hcurrent, hspaced, hlast, hbreaks⟩ := h
  cases hspaced with
  | nil => exact ⟨hcurrent, .nil _, hlast, hbreaks⟩
  | keep t hspaced => exact ⟨rfl, hspaced, hlast.of_cons, hbreaks⟩
  | space b hb hbefore hmore hspaced =>
    rw [hat] at hbefore
    cases hbefore

theorem setLineBreaks (h : c.Respaced d) (count : Bool) :
    Respaced { c with lineBreaksCount := count } { d with lineBreaksCount := count } :=
  ⟨h.current, h.rest, h.last, rfl⟩

end Cursor.Respaced

namespace Parser

variable {ρ α β γ : Type} {P : Token → Prop}

/-- States that differ in the blanks and tabs to come. -/
def State.Respaced (s t : State ρ) : Prop :=
  ∃ d, s.cursor.Respaced d ∧ t = { s with cursor := d }

theorem State.Respaced.advance {s t : State ρ} (h : s.Respaced t) :
    (s.advance true).Respaced (t.advance true) := by
  obtain ⟨d, hd, rfl⟩ := h
  exact ⟨d.advance true, hd.advance, rfl⟩

theorem State.Respaced.sameStep {s t : State ρ} (h : s.Respaced t) :
    SameStep State.Respaced s t := by
  have hadvance := h.advance
  obtain ⟨d, hd, rfl⟩ := h
  have hcurrent : (d.advance true).current = (s.cursor.advance true).current := hd.advance.current
  refine ⟨hadvance, hcurrent, ?_⟩
  have hrest : s.cursor.rest = [] ↔ d.rest = [] := hd.rest.eq_nil_iff.symm
  simp only [State.AtEnd, State.advance, hcurrent, hrest]

/-- The parser goes the same way whatever blanks and tabs stand before it, from a token in `P`. -/
def Blind (P : Token → Prop) (p : Parser ρ α) : Prop :=
  ∀ ⦃s t : State ρ⦄, s.Respaced t → P s.cursor.current →
    SameRun State.Respaced (p.run s) (p.run t)

/-! ## Rules -/

namespace Blind

variable {p : Parser ρ α} {f : α → Parser ρ β}

theorem mono {Q : Token → Prop} (h : Blind Q p) (himp : ∀ t, P t → Q t) : Blind P p :=
  fun _ _ hst hP => h hst (himp _ hP)

theorem pure (a : α) : Blind P (Pure.pure a : Parser ρ α) := fun _ _ hst _ => ⟨rfl, hst⟩

theorem fail (e : ScriptError) : Blind P (fail e : Parser ρ α) := fun _ _ hst _ => ⟨rfl, hst⟩

theorem failAt (t : Token) (fault : Fault) : Blind P (failAt t fault : Parser ρ α) := fail _

theorem unexpected (t : Token) : Blind P (unexpected t : Parser ρ α) := fail _

theorem unexpectedName (t : Token) : Blind P (unexpectedName t : Parser ρ α) := fail _

theorem failIf (b : Bool) (t : Token) (fault : Fault) :
    Blind P (failIf b t fault : Parser ρ Unit) := by
  unfold Parser.failIf
  split
  · exact fail _
  · exact pure ()

theorem note (notices : Journal) : Blind P (note notices : Parser ρ Unit) := by
  rintro s t ⟨d, hd, rfl⟩ -
  exact ⟨rfl, d, hd, rfl⟩

theorem noteIf (b : Bool) (notices : Journal) : Blind P (noteIf b notices : Parser ρ Unit) := by
  unfold Parser.noteIf
  split
  · exact note _
  · exact pure ()

theorem consult (f : Variables → α) : Blind P (consult f : Parser ρ α) := by
  rintro s t ⟨d, hd, rfl⟩ -
  exact ⟨rfl, d, hd, rfl⟩

theorem setVariable (name : String) (value : Value) :
    Blind P (setVariable name value : Parser ρ Unit) := by
  rintro s t ⟨d, hd, rfl⟩ -
  exact ⟨rfl, d, hd, rfl⟩

theorem build (f : ρ → α × ρ) : Blind P (build f) := by
  rintro s t ⟨d, hd, rfl⟩ -
  exact ⟨rfl, d, hd, rfl⟩

theorem inspect (f : ρ → α) : Blind P (inspect f) := build _

theorem modify (f : ρ → ρ) : Blind P (modify f) := build _

theorem take : Blind P (take true : Parser ρ Token) := by
  intro s t hst _
  exact ⟨congrArg Except.ok hst.sameStep.token.symm, hst.advance⟩

theorem peek : Blind P (peek : Parser ρ Token) := by
  intro s t hst _
  exact ⟨congrArg Except.ok hst.sameStep.token.symm, hst⟩

theorem current : Blind P (current : Parser ρ Token) := by
  rintro s t ⟨d, hd, rfl⟩ -
  exact ⟨congrArg Except.ok hd.current.symm, d, hd, rfl⟩

theorem withLineBreaks (h : Blind P p) : Blind P (withLineBreaks p) := by
  rintro s t ⟨d, hd, rfl⟩ hP
  have hst : (s.setLineBreaks true).Respaced
      (State.setLineBreaks { s with cursor := d } true) := ⟨_, hd.setLineBreaks true, rfl⟩
  obtain ⟨hanswer, d', hd', hstate⟩ := h hst hP
  refine ⟨hanswer, _, hd'.setLineBreaks s.cursor.lineBreaksCount, ?_⟩
  change State.setLineBreaks (p.run _).2 d.lineBreaksCount = _
  rw [hstate, hd.lineBreaks]
  rfl

/-- After `p`, the parser may stand anywhere. -/
theorem bind (hp : Blind P p) (hf : ∀ a, Blind (fun _ => True) (f a)) : Blind P (p >>= f) := by
  intro s t hst hP
  have hsame := hp hst hP
  rw [run_bind, run_bind]
  rcases hrun : p.run s with ⟨e | a, u⟩ <;> rw [hrun] at hsame <;>
    obtain ⟨v, hv, huv⟩ := hsame.eq_right <;> rw [hv]
  · exact ⟨rfl, huv⟩
  · exact hf a huv trivial

/-- After a token has been read, the parser stands on it. -/
theorem bind_token {p : Parser ρ Token} {f : Token → Parser ρ β} (hp : Blind P p)
    (hon : EndsOn p fun t c => c = t) (hf : ∀ t, Blind (· = t) (f t)) : Blind P (p >>= f) := by
  intro s t hst hP
  have hsame := hp hst hP
  rw [run_bind, run_bind]
  rcases hrun : p.run s with ⟨e | a, u⟩ <;> rw [hrun] at hsame <;>
    obtain ⟨v, hv, huv⟩ := hsame.eq_right <;> rw [hv]
  · exact ⟨rfl, huv⟩
  · exact hf a huv (hon hrun)

/-- A loop stands on the token it hands to its body. -/
theorem overTokens {body : α → Token → Parser ρ (Progress α β)} {finish : α → Token → Parser ρ β}
    (hbody : ∀ a t, Blind (· = t) (body a t)) (hfinish : ∀ a t, Blind (fun _ => True) (finish a t))
    (a : α) : Blind P (overTokens body finish a) := by
  intro s t hst _
  have hrun : SameRun State.Respaced (runOverTokens body finish a s)
      (runOverTokens body finish a t) ∨ False :=
    runOverTokens_sameRun (E := fun _ => False) (fun _ h => h) (fun h => .inl h.sameStep)
      (fun a _ _ h => .inl (hbody a _ h rfl)) (fun a x _ _ h => .inl (hfinish a x h trivial)) a
      (.inl hst.sameStep)
  exact hrun.resolve_right id

/-! ## Single tokens -/

theorem unlessEnd (t : Token) : Blind P (unlessEnd t : Parser ρ Token) := by
  unfold Parser.unlessEnd
  split
  · exact failAt t _
  · exact pure t

theorem next : Blind P (next : Parser ρ Token) := .bind take unlessEnd

/-- What is made of the next token. -/
theorem bind_next {f : Token → Parser ρ β} (hf : ∀ t, Blind (· = t) (f t)) :
    Blind P (Parser.next >>= f) :=
  bind_token next .next hf

theorem bind_take {f : Token → Parser ρ β} (hf : ∀ t, Blind (· = t) (f t)) :
    Blind P (Parser.take true >>= f) := by
  refine bind_token take (fun s t u hrun => ?_) hf
  cases hrun
  rfl

theorem expect (symbol : Symbol) : Blind P (expect symbol : Parser ρ Unit) := by
  refine .bind next fun t => ?_
  split
  · exact pure ()
  · exact unexpected t

theorem accept (symbol : Symbol) : Blind P (accept symbol : Parser ρ Bool) := by
  refine .bind peek fun t => ?_
  split
  · exact .bind take fun _ => pure true
  · exact pure false

/-- The one step that skips nothing, from the `@` before the name. -/
theorem variableName : Blind (·.isSymbol .atSign) (variableName : Parser ρ String) := by
  have raw : Blind (·.isSymbol .atSign) (Parser.take false : Parser ρ Token) := by
    rintro s t ⟨d, hd, rfl⟩ hat
    have hadvance := hd.advance_false hat
    exact ⟨congrArg Except.ok hadvance.current.symm, _, hadvance, rfl⟩
  refine .bind raw fun t => .bind (unlessEnd t) fun t => ?_
  split
  · exact pure _
  · exact failAt t _

/-- The name of a variable whose `@` is the token read last. -/
theorem variableName_after {t : Token} (h : t.kind = .symbol .atSign) :
    Blind (· = t) (Parser.variableName : Parser ρ String) :=
  variableName.mono fun _ heq => by simp [heq, Token.isSymbol, h]

theorem declaredName : Blind P (declaredName : Parser ρ Token) := by
  refine .bind next fun t => ?_
  split
  · exact pure t
  · exact failAt t _

theorem separated (separator : Symbol) {term : Token → Parser ρ α}
    (hterm : ∀ t, Blind (· = t) (term t)) : Blind P (separated separator term) :=
  overTokens (fun _ t => .bind (hterm t) fun _ => .bind (accept _) fun _ => pure _)
    (fun _ t => failAt t _) _

theorem seekBrace : Blind P (seekBrace : Parser ρ Unit) :=
  overTokens (fun _ _ => pure _) (fun _ t => failAt t _) _

theorem skipToClose : Blind P (skipToClose : Parser ρ Unit) :=
  overTokens (fun _ _ => pure _) (fun _ t => failAt t _) _

theorem skipBlock : Blind P (skipBlock : Parser ρ Unit) := .bind seekBrace fun _ => skipToClose

/-! ## Values -/

theorem numeral (t : Token) : Blind P (numeral t : Parser ρ Float) := by
  unfold Parser.numeral
  split
  · exact pure _
  · exact failAt t _

theorem termOnLine : Blind P (termOnLine : Parser ρ Token) := by
  refine .bind next fun t => ?_
  split
  · exact unexpected t
  · exact pure t

theorem operand (unbound : Value) (t : Token) :
    Blind (· = t) (operand unbound t : Parser ρ Value) := by
  unfold Parser.operand
  split
  · exact .bind (numeral t) fun _ => pure _
  · exact .bind (numeral t) fun _ => pure _
  · exact pure _
  · rename_i hat
    refine .bind (variableName_after hat) fun name => .bind (consult _) fun found => ?_
    split
    · exact pure _
    · exact .bind (note _) fun _ => pure _
  · exact failAt t _

theorem endOfNumber : Blind P (endOfNumber : Parser ρ Unit) := by
  refine .bind take fun t => ?_
  split
  · exact pure ()
  · split
    · exact failAt t _
    · exact failAt t _

theorem joined : Blind P (joined : Parser ρ String) := by
  refine bind_token termOnLine .termOnLine fun t => ?_
  split
  · exact failAt t _
  · refine .bind (operand _ t) fun value => ?_
    split
    · exact pure _
    · exact failAt t _

theorem restOfText (first : String) : Blind P (restOfText first : Parser ρ String) := by
  refine overTokens (fun text t => ?_) (fun _ _ => pure _) _
  split
  · exact pure _
  · split
    · exact .bind joined fun _ => pure _
    · exact failAt t _

theorem initializer : Blind P (initializer : Parser ρ Value) := by
  refine bind_take fun t => ?_
  split
  · exact failAt t _
  split
  · refine bind_token termOnLine .termOnLine fun t => .bind (operand _ t) fun value => ?_
    split
    · exact .bind endOfNumber fun _ => pure _
    · exact failAt t _
  · refine .bind (operand _ t) fun value => ?_
    split
    · exact .bind endOfNumber fun _ => pure _
    · exact .bind (restOfText _) fun _ => pure _

theorem definitionLine : Blind (·.isSymbol .atSign) (definitionLine : Parser ρ Unit) := by
  refine .bind variableName fun name => .bind (consult _) fun _ => .bind (noteIf _ _) fun _ =>
    .bind next fun t => ?_
  split
  · exact .bind initializer fun _ => setVariable _ _
  · exact failAt t _

theorem variableDefinition {t : Token} (h : t.kind = .symbol .atSign) :
    Blind (· = t) (variableDefinition : Parser ρ Unit) :=
  .withLineBreaks (definitionLine.mono fun _ heq => by simp [heq, Token.isSymbol, h])

theorem optionalEqual : Blind P (optionalEqual : Parser ρ Unit) := .bind (accept _) fun _ => pure ()

theorem magnitude (t : Token) : Blind (· = t) (magnitude t : Parser ρ Float) := by
  unfold Parser.magnitude
  split
  · exact numeral t
  · exact numeral t
  · rename_i hat
    exact .bind (variableName_after hat) fun _ => .bind (consult _) fun _ => .bind (note _) fun _ =>
      pure _
  · exact unexpectedName t
  · exact unexpected t

theorem signedNumber (t : Token) : Blind (· = t) (signedNumber t : Parser ρ Float) := by
  unfold Parser.signedNumber
  split
  · exact bind_next fun t => .bind (magnitude t) fun _ => pure _
  · exact magnitude t

theorem number : Blind P (number : Parser ρ Float) :=
  .bind optionalEqual fun _ => bind_next signedNumber

theorem word : Blind P (word : Parser ρ String) := by
  refine .bind optionalEqual fun _ => .bind next fun t => ?_
  split
  · exact pure _
  · exact unexpected t

theorem flag : Blind P (flag : Parser ρ Bool) := by
  refine .bind optionalEqual fun _ => .bind next fun t => ?_
  split
  · exact pure _
  split
  · exact pure _
  split
  · exact unexpectedName t
  · exact unexpected t

theorem keyword (vocabulary : Vocabulary α) : Blind P (keyword vocabulary : Parser ρ α) :=
  .bind word fun _ => .bind (note _) fun _ => pure _

theorem textTerm (t : Token) : Blind (· = t) (textTerm t : Parser ρ String) := by
  unfold Parser.textTerm
  split
  · exact pure _
  · rename_i hat
    exact .bind (variableName_after hat) fun _ => .bind (consult _) fun _ => .bind (note _) fun _ =>
      pure _
  · exact failAt t _

theorem text : Blind P (text : Parser ρ String) :=
  .withLineBreaks (.bind optionalEqual fun _ => .bind (separated _ textTerm) fun _ => pure _)

theorem color : Blind P (color : Parser ρ Color) :=
  .withLineBreaks (.bind optionalEqual fun _ => .bind (separated _ signedNumber) fun _ => pure _)

theorem nameOrText : Blind P (nameOrText : Parser ρ String) := by
  refine .bind optionalEqual fun _ => .bind peek fun t => ?_
  split
  · exact text
  · exact text
  · exact word

theorem read (a : Attribute β) : Blind P (a.read : Parser ρ (β → β)) := by
  cases a with
  | color set => exact .bind color fun _ => pure _
  | number set => exact .bind number fun _ => pure _
  | flag set => exact .bind flag fun _ => pure _
  | text set => exact .bind text fun _ => pure _
  | keyword changes => exact keyword changes

theorem readLine (attributes : Attributes β) (t : Token) :
    Blind P (Attribute.readLine attributes t : Parser ρ (β → β)) := by
  unfold Attribute.readLine
  split
  · exact read _
  · exact unexpectedName t

/-! ## Blocks -/

theorem discardedBlock : Blind P (discardedBlock : Parser ρ Unit) := by
  refine .bind peek fun t => ?_
  split
  · exact skipBlock
  · exact unexpected t

section Lines

variable {named : β → Token → Parser ρ β} (hnamed : ∀ b t, Blind (fun _ => True) (named b t))
include hnamed

theorem line (b : β) (t : Token) : Blind (· = t) (line named b t) := by
  unfold Parser.line
  split
  · rename_i hat
    exact .bind (variableDefinition hat) fun _ => pure b
  · split
    · exact .bind discardedBlock fun _ => pure b
    · exact (hnamed b t).mono fun _ _ => trivial
  · exact unexpected t

theorem lines (closing : TokenKind) (b : β) : Blind P (lines closing named b) := by
  refine overTokens (fun b t => ?_) (fun b t => ?_) b
  · unfold lineOrClose
    split
    · exact pure _
    · exact .bind (line hnamed b t) fun _ => pure _
  · unfold closeAtEnd
    split
    · exact pure b
    · exact unexpected t

theorem blockBody (b : β) : Blind P (blockBody named b) := lines hnamed _ b

theorem block (b : β) : Blind P (block named b) := .bind (expect _) fun _ => blockBody hnamed b

end Lines

end Blind

/-! ## Declarations -/

section Grammar

variable {σ : Type}

theorem newName_blind (kind : ResourceKind) : Blind P (newName (σ := σ) kind) :=
  .bind .declaredName fun _ => .bind (.bind (.inspect _) fun _ => .failIf _ _ _) fun _ => .pure _

theorem materialLine_blind (b : Unit) (t : Token) : Blind P (materialLine (σ := σ) b t) :=
  .bind (.readLine _ t) fun _ => .modify _

theorem filterLine_blind (b : Unit) (t : Token) : Blind P (filterLine (σ := σ) b t) :=
  .bind (.readLine _ t) fun _ => .modify _

theorem textureLine_blind (b : Unit) (t : Token) : Blind P (textureLine (σ := σ) b t) := by
  unfold textureLine
  split
  · exact .block filterLine_blind ()
  · exact .bind (.readLine _ t) fun _ => .modify _

theorem boundTexture_blind : Blind P (boundTexture (σ := σ)) := by
  refine .bind .nameOrText fun name => .bind (.inspect _) fun found => ?_
  split
  · exact .pure _
  · exact .bind (.note _) fun _ => .pure _

theorem layerLine_blind (b : Unit) (t : Token) : Blind P (layerLine (σ := σ) b t) := by
  unfold layerLine
  split
  · exact .bind boundTexture_blind fun _ => .modify _
  · exact .bind (.readLine _ t) fun _ => .modify _

theorem layerKind_blind : Blind P (layerKind (σ := σ)) := by
  refine .bind .next fun t => ?_
  split
  · split
    · exact .pure _
    · exact .failAt t _
  · exact .unexpected t

theorem componentLine_blind (a : VertexAttribute) (t : Token) :
    Blind P (componentLine (σ := σ) a t) :=
  .bind (.readLine _ t) fun _ => .pure _

theorem headerName_blind (kind : AttributeKind) : Blind P (headerName (σ := σ) kind) := by
  unfold headerName
  split
  · refine .bind .next fun t => ?_
    split
    · exact .pure _
    · exact .failAt t _
  · exact .pure ""

theorem attributeBlock_blind (b : Unit) (t : Token) : Blind P (attributeBlock (σ := σ) b t) := by
  unfold attributeBlock
  split
  · exact .unexpectedName t
  · exact .bind (.bind (headerName_blind _) fun _ => .bind (.expect _) fun _ => .pure _) fun a =>
      .bind (.blockBody componentLine_blind a) fun _ => .modify _

theorem requireVersion_blind (t : Token) : Blind P (requireVersion (σ := σ) t) :=
  .bind (.inspect _) fun _ => .failIf _ _ _

theorem codeFromFile_blind : Blind P (codeFromFile (σ := σ)) := by
  refine .bind .text fun path => .bind (.build _) fun content => ?_
  split
  · exact .pure _
  · exact .bind (.note _) fun _ => .pure _

theorem stageLine_blind (b : Unit) (t : Token) : Blind P (stageLine (σ := σ) b t) := by
  unfold stageLine
  split
  · exact .bind (.keyword _) fun _ => .modify _
  · exact .bind (requireVersion_blind t) fun _ => .bind .text fun _ => .modify _
  · exact .bind (requireVersion_blind t) fun _ => .bind codeFromFile_blind fun _ => .modify _
  · exact .unexpectedName t

theorem stageHeader_blind (stage : ShaderType) : Blind P (stageHeader (σ := σ) stage) := by
  refine .bind .next fun t => ?_
  split
  · exact .pure _
  split
  · exact .bind (.expect _) fun _ => .pure _
  · exact .failAt t _

theorem inputLayout_blind : Blind P (inputLayout (σ := σ)) := by
  refine .bind .next fun t => ?_
  split
  · exact .pure none
  · exact .bind (.inspect _) fun _ => .bind (.noteIf _ _) fun _ => .bind (.expect _) fun _ =>
      .pure _
  · exact .unexpected t

variable [RenderSystem σ]

theorem finishStage_blind (stage : ShaderType) (entryPoint : String) :
    Blind P (finishStage (σ := σ) stage entryPoint) := by
  refine .bind .current fun close => .bind (.build _) fun draft => ?_
  split
  · exact .failAt close _
  split
  · exact .note _
  · exact .bind (.build _) fun _ => .noteIf _ _

theorem stageBlock_blind (b : Unit) (t : Token) : Blind P (stageBlock (σ := σ) b t) := by
  unfold stageBlock
  split
  · exact .unexpectedName t
  · exact .bind (stageHeader_blind _) fun _ => .bind (.blockBody stageLine_blind ()) fun _ =>
      finishStage_blind _ _

theorem dialectBlock_blind (b : Unit) (t : Token) : Blind P (dialectBlock (σ := σ) b t) := by
  unfold dialectBlock
  split
  · exact .unexpectedName t
  · refine .bind (.inspect _) fun backend => ?_
    split
    · exact .bind (.note _) fun _ => .skipBlock
    · exact .bind (.block stageBlock_blind ()) fun _ => .bind (.build _) fun _ =>
        .bind (.inspect _) fun _ => .noteIf _ _

theorem material_blind : Blind P (material (σ := σ)) :=
  .bind (.bind (newName_blind _) fun _ => .bind (.expect _) fun _ => .bind (.modify _) fun _ =>
    .pure _) fun _ => .blockBody materialLine_blind ()

theorem shader_blind : Blind P (shader (σ := σ)) := by
  refine .bind .declaredName fun name => .bind (.inspect _) fun supported => ?_
  split
  · exact .bind (.note _) fun _ => .skipBlock
  · exact .bind (.bind (.bind (.inspect _) fun _ => .failIf _ _ _) fun _ =>
      .bind inputLayout_blind fun _ => .modify _) fun _ => .blockBody dialectBlock_blind ()

theorem vertexFormat_blind : Blind P (vertexFormat (σ := σ)) :=
  .bind (.bind .declaredName fun _ => .bind (.failIf _ _ _) fun _ =>
    .bind (.bind (.inspect _) fun _ => .failIf _ _ _) fun _ => .bind (.expect _) fun _ =>
    .bind (.modify _) fun _ => .pure _) fun _ => .blockBody attributeBlock_blind ()

theorem texture_blind : Blind P (texture (σ := σ)) :=
  .bind (.bind (newName_blind _) fun _ => .bind (.expect _) fun _ => .bind (.modify _) fun _ =>
    .pure _) fun _ => .bind (.blockBody textureLine_blind ()) fun _ =>
    .bind .current fun _ => .bind (.build _) fun _ => .bind (.build _) fun _ => .failIf _ _ _

theorem textureLayer_blind : Blind P (textureLayer (σ := σ)) :=
  .bind (.bind (newName_blind _) fun _ => .bind layerKind_blind fun _ => .bind (.expect _) fun _ =>
    .bind (.modify _) fun _ => .pure _) fun _ => .blockBody layerLine_blind ()

theorem declaration_blind (b : Unit) (t : Token) : Blind P (declaration (σ := σ) b t) := by
  unfold declaration
  split
  · exact material_blind
  · exact shader_blind
  · exact vertexFormat_blind
  · exact texture_blind
  · exact textureLayer_blind
  · exact .unexpectedName t

theorem script_blind : Blind P (script (σ := σ)) := .lines declaration_blind _ ()

end Grammar

end Parser

/-! ## Loads -/

namespace Loader

variable {σ : Type}

theorem start_respaced (l : Loader σ) (files : Files) {ts us : List Token} {e : Token}
    (hlast : ts.getLast? = some e) (he : e.isEndOfFile) (h : Spaced Token.beforeFirst ts us) :
    (l.start files ts).Respaced (l.start files us) := by
  have hlast' : us.getLast? = some e := h.getLast?_eq.trans hlast
  have hts : Cursor.closed ts = ts := by simp [Cursor.closed, hlast, he]
  have hus : Cursor.closed us = us := by simp [Cursor.closed, hlast', he]
  refine ⟨.ofTokens us, ⟨rfl, ?_, ?_, rfl⟩, rfl⟩
  · change Spaced Token.beforeFirst (Cursor.closed ts) (Cursor.closed us)
    rw [hts, hus]
    exact h
  · change EndsLast (Cursor.closed ts)
    rw [hts]
    intro x hx
    rw [hlast] at hx
    cases hx
    exact he

variable [RenderSystem σ]

/-- Reading sequences that differ in blanks and tabs gives the same answer and leaves the same
behind. -/
theorem readOn_spaced (l : Loader σ) (files : Files) {ts us : List Token} {e : Token}
    (hlast : ts.getLast? = some e) (he : e.isEndOfFile) (h : Spaced Token.beforeFirst ts us) :
    l.readOn files us = l.readOn files ts := by
  have hcheck : Brackets.check us = Brackets.check ts := h.checkAfter []
  have hrun := Parser.script_blind (P := fun _ => True) (l.start_respaced files hlast he h) trivial
  have hfrom : l.readFrom (l.start files us) = l.readFrom (l.start files ts) := by
    unfold readFrom
    rcases hs : Parser.script.run (l.start files ts) with ⟨e | a, u⟩ <;> rw [hs] at hrun <;>
      obtain ⟨v, hv, d, -, rfl⟩ := hrun.eq_right <;> rw [hv] <;> rfl
  unfold readOn
  rw [h.declaresNothing, hcheck, hfrom]

/-- **Blanks and tabs never change the meaning of a script.** Loading a token sequence that ends
with the end of the file, and loading it with blanks and tabs put in anywhere but right after an
`@` or after its end, give the same answer (the same error at the same place, if one ends them)
and leave the same resources, variables, notices, drafts and render system. -/
theorem readTokens_spaced (l : Loader σ) (files : Files) {ts us : List Token} {e : Token}
    (hlast : ts.getLast? = some e) (he : e.isEndOfFile) (h : Spaced Token.beforeFirst ts us) :
    l.readTokens files us = l.readTokens files ts :=
  l.begin.readOn_spaced files hlast he h

/-- A definition and the material that refers to it, with a tab and blanks put in. -/
theorem readTokens_spaced_reference :
    let token : TokenKind → String → Token := fun kind text => ⟨kind, text, .start⟩
    let blank := token .blank ""
    let tab := token .tab ""
    let mark := token (.symbol .atSign) ""
    let definition := [mark, token .name "gloss", token (.symbol .equal) "", token .integer "3",
      token .newline ""]
    let spacedDefinition := [tab, mark, token .name "gloss", blank, token (.symbol .equal) "",
      blank, blank, token .integer "3", tab, token .newline ""]
    let material := [token .name "material", token .string "m", token (.symbol .leftBrace) "",
      token .name "shininess", mark, token .name "gloss", token (.symbol .rightBrace) "",
      token .endOfFile ""]
    let spacedMaterial := [token .name "material", blank, token .string "m",
      token (.symbol .leftBrace) "", tab, token .name "shininess", mark, token .name "gloss", blank,
      token (.symbol .rightBrace) "", token .endOfFile ""]
    let loader := Loader.new Recorder.default "/data"
    let files : Files := fun _ => .error .notFound
    spacedDefinition ++ spacedMaterial ≠ definition ++ material ∧
      Spaced Token.beforeFirst (definition ++ material) (spacedDefinition ++ spacedMaterial) ∧
      loader.readTokens files (spacedDefinition ++ spacedMaterial) =
        loader.readTokens files (definition ++ material) := by
  intro token blank tab mark definition spacedDefinition material spacedMaterial loader files
  have hspaced : Spaced Token.beforeFirst (definition ++ material)
      (spacedDefinition ++ spacedMaterial) := by
    refine .space tab rfl rfl (by simp [definition]) (.keep mark (.keep _ ?_))
    refine .space blank rfl rfl (by simp) (.keep _ (.space blank rfl rfl (by simp) ?_))
    refine .space blank rfl rfl (by simp) (.keep _ (.space tab rfl rfl (by simp) (.keep _ ?_)))
    refine .keep _ (.space blank rfl rfl (by simp) (.keep _ (.keep _ ?_)))
    refine .space tab rfl rfl (by simp) (.keep _ (.keep mark (.keep _ ?_)))
    exact .space blank rfl rfl (by simp) (.keep _ (.keep _ (.nil _)))
  refine ⟨by decide, hspaced, ?_⟩
  exact readTokens_spaced loader files (e := token .endOfFile "") rfl rfl hspaced

end Loader

end MaterialScript
