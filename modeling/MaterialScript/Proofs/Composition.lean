/-
What parsers are made of.

`Composed may looks p` says that `p` is made of the operations of
`Parser.Basic`, that it changes the scene only in ways `may` admits, and that
it looks ahead only if `looks` holds. What every operation keeps, every parser
keeps: `Composed.keeps` (an invariant of the scene), `Composed.lockstep` (a
relation between two runs that do the same, until one of them escapes) and
`Composed.sameRun` (between runs on the same cursor, a `Congruence`). Here are
the parsers of values, lines and blocks; those of declarations follow in
`Proofs.SceneChange`.
-/
import MaterialScript.Grammar.Attribute

namespace MaterialScript.Parser

variable {ρ α β : Type}

/-- What is read with line breaks as tokens. -/
inductive LineValue where
  | definition
  | text
  | color

/-- The parsers that read a line value. -/
inductive ReadsLineValue : LineValue → ∀ {α : Type}, Parser ρ α → Prop
  | definition : ReadsLineValue .definition variableDefinition
  | text : ReadsLineValue .text text
  | color : ReadsLineValue .color color

/-- The parser is made of the operations below. The variables are read only by name, so a parser
cannot tell two tables apart that agree; line breaks count in line values only. -/
inductive Composed (may : ∀ α : Type, (ρ → α × ρ) → Prop) (looks : Prop) :
    ∀ {α : Type}, Parser ρ α → Prop
  | pure {α : Type} (a : α) : Composed may looks (Pure.pure a)
  | fail {α : Type} (e : ScriptError) : Composed may looks (fail e : Parser ρ α)
  | bind {α β : Type} {p : Parser ρ α} {f : α → Parser ρ β} :
      Composed may looks p → (∀ a, Composed may looks (f a)) → Composed may looks (p >>= f)
  | note (notices : Journal) : Composed may looks (note notices)
  | consult {α : Type} {f : Variables → α} :
      (∀ v w, v.Agrees w → f v = f w) → Composed may looks (consult f)
  | setVariable (name : String) (value : Value) : Composed may looks (setVariable name value)
  | build {α : Type} {f : ρ → α × ρ} : may α f → Composed may looks (build f)
  | take (skipWhitespace : Bool) : Composed may looks (take skipWhitespace)
  | peek : looks → Composed may looks peek
  | current : Composed may looks current
  | lineValue {α : Type} {p : Parser ρ α} {v : LineValue} :
      ReadsLineValue v (withLineBreaks p) → Composed may looks p →
      Composed may looks (withLineBreaks p)
  | overTokens {α β : Type} {body : α → Token → Parser ρ (Progress α β)}
      {finish : α → Token → Parser ρ β} (a : α) :
      (∀ a t, Composed may looks (body a t)) → (∀ a t, Composed may looks (finish a t)) →
      Composed may looks (overTokens body finish a)

variable {may : ∀ α : Type, (ρ → α × ρ) → Prop} {looks : Prop}

/-- What admits more ways to change the scene admits more parsers. -/
theorem Composed.mono {may' : ∀ α : Type, (ρ → α × ρ) → Prop} {p : Parser ρ α}
    (h : Composed may looks p) (hmay : ∀ α f, may α f → may' α f) : Composed may' looks p := by
  induction h with
  | pure a => exact .pure a
  | fail e => exact .fail e
  | bind _ _ ihp ihf => exact .bind ihp ihf
  | note notices => exact .note notices
  | consult hf => exact .consult hf
  | setVariable name value => exact .setVariable name value
  | build hf => exact .build (hmay _ _ hf)
  | take b => exact .take b
  | peek hl => exact .peek hl
  | current => exact .current
  | lineValue hv _ ih => exact .lineValue hv ih
  | overTokens a _ _ ihb ihf => exact .overTokens a ihb ihf

/-! ## Laws of all parsers -/

/-- What every change of the scene keeps, a parser keeps, whether it succeeds or fails. -/
theorem Composed.keeps {p : Parser ρ α} (h : Composed may looks p) (inv : ρ → Prop)
    (hinv : ∀ α f r, may α f → inv r → inv (f r).2) {s : State ρ} (hs : inv s.scene) :
    inv (p.run s).2.scene := by
  induction h generalizing s with
  | pure a => exact hs
  | fail e => exact hs
  | @bind _ _ p f _ _ ihp ihf =>
    have hp := ihp hs
    rw [run_bind]
    split
    · rename_i a t heq
      rw [heq] at hp
      exact ihf a hp
    · rename_i e t heq
      rw [heq] at hp
      exact hp
  | note notices => exact hs
  | consult hf => exact hs
  | setVariable name value => exact hs
  | build hf => exact hinv _ _ _ hf hs
  | take b => exact hs
  | peek hl => exact hs
  | current => exact hs
  | lineValue _ _ ih => exact ih (s := s.setLineBreaks true) hs
  | @overTokens _ _ body finish a _ _ ihb ihf =>
    exact runOverTokens_keeps (I := fun s => inv s.scene) (fun _ h => h) (fun a t _ h => ihb a t h)
      (fun a t _ h => ihf a t h) hs

theorem Composed.keeps_of_run {p : Parser ρ α} (h : Composed may looks p) (inv : ρ → Prop)
    (hinv : ∀ α f r, may α f → inv r → inv (f r).2) {answer : Except ScriptError α}
    {s u : State ρ} (hrun : p.run s = (answer, u)) (hs : inv s.scene) : inv u.scene := by
  have hkeeps := h.keeps inv hinv hs
  rw [hrun] at hkeeps
  exact hkeeps

/-- What does not change the scene. -/
def LooksOnly (α : Type) (f : ρ → α × ρ) : Prop := ∀ r, (f r).2 = r

theorem Composed.scene_eq {p : Parser ρ α} (h : Composed LooksOnly looks p) (s : State ρ) :
    (p.run s).2.scene = s.scene :=
  h.keeps (fun r => r = s.scene) (fun _ _ r hf hr => (hf r).trans hr) rfl

/-- Two runs answer the same and end in states that `R` relates. -/
def SameRun (R : State ρ → State ρ → Prop) (x y : Except ScriptError α × State ρ) : Prop :=
  x.1 = y.1 ∧ R x.2 y.2

theorem SameRun.eq_right {R : State ρ → State ρ → Prop} {answer : Except ScriptError α}
    {u : State ρ} {y : Except ScriptError α × State ρ} (h : SameRun R (answer, u) y) :
    ∃ v, y = (answer, v) ∧ R u v :=
  ⟨y.2, Prod.ext h.1.symm rfl, h.2⟩

/-- Two steps that a loop treats alike: to states that `R` relates, with the same token, both at the
end or neither. -/
structure SameStep (R : State ρ → State ρ → Prop) (s t : State ρ) : Prop where
  states : R (s.advance true) (t.advance true)
  token : (t.advance true).cursor.current = (s.advance true).cursor.current
  atEnd : s.AtEnd ↔ t.AtEnd

/-- Two runs of a loop are the same if their rounds are, unless the first gets to a state in `E`,
which it does not leave. -/
theorem runOverTokens_sameRun {R : State ρ → State ρ → Prop} {E : State ρ → Prop}
    {body : α → Token → Parser ρ (Progress α β)} {finish : α → Token → Parser ρ β}
    (honward : ∀ {s t : State ρ}, s.Onward t → E s → E t)
    (hstep : ∀ {s t}, R s t → SameStep R s t ∨ E (s.advance true))
    (hbody : ∀ a {s t}, R s t →
      SameRun R ((body a s.cursor.current).run s) ((body a s.cursor.current).run t) ∨
        E ((body a s.cursor.current).run s).2)
    (hfinish : ∀ a x {s t}, R s t →
      SameRun R ((finish a x).run s) ((finish a x).run t) ∨ E ((finish a x).run s).2)
    (a : α) {s t : State ρ} (hst : SameStep R s t ∨ E (s.advance true)) :
    SameRun R (runOverTokens body finish a s) (runOverTokens body finish a t) ∨
      E (runOverTokens body finish a s).2 := by
  -- a round of one run and the same round of the other
  have round : ∀ {a s t answer u}, ¬ s.AtEnd → SameStep R s t ∨ E (s.advance true) →
      (body a (s.advance true).cursor.current).run (s.advance true) = (answer, u) →
      ¬ t.AtEnd ∧
        (∃ v, (body a (t.advance true).cursor.current).run (t.advance true) = (answer, v) ∧ R u v) ∨
        E u := by
    intro a s t answer u hend hst hrun
    rcases hst with h | h
    · rcases hbody a h.states with hsame | hleft
      · rw [hrun] at hsame
        rw [h.token]
        exact .inl ⟨fun hend' => hend (h.atEnd.2 hend'), hsame.eq_right⟩
      · rw [hrun] at hleft
        exact .inr hleft
    · exact .inr (honward (onward_of_run hrun) h)
  induction a, s using loop_induction body generalizing t with
  | atEnd a s hend =>
    rw [runOverTokens_atEnd hend]
    rcases hst with h | h
    · rw [runOverTokens_atEnd (h.atEnd.1 hend), h.token]
      exact hfinish a _ h.states
    · exact .inr (honward ((finish a _).onward _) h)
  | more a s a' u hend hrun ih =>
    rw [runOverTokens_more hend hrun]
    rcases round hend hst hrun with ⟨hend', v, hrun', huv⟩ | hleft
    · rw [runOverTokens_more hend' hrun']
      exact ih (hstep huv)
    · exact .inr (honward (runOverTokens_onward body finish a' u) hleft)
  | done a s b u hend hrun =>
    rw [runOverTokens_done hend hrun]
    rcases round hend hst hrun with ⟨hend', v, hrun', huv⟩ | hleft
    · rw [runOverTokens_done hend' hrun']
      exact .inl ⟨rfl, huv⟩
    · exact .inr hleft
  | error a s e u hend hrun =>
    rw [runOverTokens_error hend hrun]
    rcases round hend hst hrun with ⟨hend', v, hrun', huv⟩ | hleft
    · rw [runOverTokens_error hend' hrun']
      exact .inl ⟨rfl, huv⟩
    · exact .inr hleft

/-- Two runs in lockstep: `R` relates states that read the same, and every operation a parser is
made of keeps it, unless the first run gets to a state in `E`, which it does not leave. -/
structure Lockstep (may : ∀ α : Type, (ρ → α × ρ) → Prop) (looks : Prop)
    (R : State ρ → State ρ → Prop) (E : State ρ → Prop) : Prop where
  onward : ∀ {s t : State ρ}, s.Onward t → E s → E t
  escaped : ∀ {s : State ρ} (count : Bool), E s → E (s.setLineBreaks count)
  current : ∀ {s t}, R s t → t.cursor.current = s.cursor.current
  lineBreaks : ∀ {s t}, R s t → t.cursor.lineBreaksCount = s.cursor.lineBreaksCount
  bindings : ∀ {s t}, R s t → s.bindings.Agrees t.bindings
  advance : ∀ {s t}, R s t → ∀ b, R (s.advance b) (t.advance b) ∨ E (s.advance b)
  atEnd : ∀ {s t}, R s t → R (s.advance true) (t.advance true) → (s.AtEnd ↔ t.AtEnd)
  peek : looks → ∀ {s t}, R s t → t.cursor.peek true = s.cursor.peek true ∨ E s
  setLineBreaks : ∀ {s t}, R s t → ∀ count, R (s.setLineBreaks count) (t.setLineBreaks count)
  note : ∀ {s t}, R s t → ∀ notices,
    R { s with journal := s.journal ++ notices } { t with journal := t.journal ++ notices }
  setVariable : ∀ {s t}, R s t → ∀ name value,
    R { s with bindings := s.bindings.set name value }
      { t with bindings := t.bindings.set name value }
  build : ∀ {α : Type} {f : ρ → α × ρ}, may α f → ∀ {s t}, R s t →
    (f s.scene).1 = (f t.scene).1 ∧
      R { s with scene := (f s.scene).2 } { t with scene := (f t.scene).2 }

namespace Lockstep

variable {R : State ρ → State ρ → Prop} {E : State ρ → Prop} (hR : Lockstep may looks R E)
  {s t : State ρ}
include hR

theorem step (hst : R s t) : SameStep R s t ∨ E (s.advance true) := by
  rcases hR.advance hst true with hstep | hleft
  · exact .inl ⟨hstep, hR.current hstep, hR.atEnd hst hstep⟩
  · exact .inr hleft

/-- Where the first part does the same, and so does whatever goes on from it. -/
theorem bind {p : Parser ρ α} {f : α → Parser ρ β}
    (hp : SameRun R (p.run s) (p.run t) ∨ E (p.run s).2)
    (hf : ∀ a {u v}, R u v → SameRun R ((f a).run u) ((f a).run v) ∨ E ((f a).run u).2) :
    SameRun R ((p >>= f).run s) ((p >>= f).run t) ∨ E ((p >>= f).run s).2 := by
  rcases hrun : p.run s with ⟨e | a, u⟩
  · rw [hrun] at hp
    rw [run_bind_of_error hrun]
    rcases hp with hp | hp
    · obtain ⟨v, hv, huv⟩ := hp.eq_right
      rw [run_bind_of_error hv]
      exact .inl ⟨rfl, huv⟩
    · exact .inr hp
  · rw [hrun] at hp
    rw [run_bind_of_ok hrun]
    rcases hp with hp | hp
    · obtain ⟨v, hv, huv⟩ := hp.eq_right
      rw [run_bind_of_ok hv]
      exact hf a huv
    · exact .inr (hR.onward ((f a).onward u) hp)

end Lockstep

/-- **A parser does the same in states that lockstep relates**, unless the first run escapes. -/
theorem Composed.lockstep {R : State ρ → State ρ → Prop} {E : State ρ → Prop}
    (hR : Lockstep may looks R E) {p : Parser ρ α} (h : Composed may looks p) {s t : State ρ}
    (hst : R s t) : SameRun R (p.run s) (p.run t) ∨ E (p.run s).2 := by
  induction h generalizing s t with
  | pure a => exact .inl ⟨rfl, hst⟩
  | fail e => exact .inl ⟨rfl, hst⟩
  | bind _ _ ihp ihf => exact hR.bind (ihp hst) fun a _ _ => ihf a
  | note notices => exact .inl ⟨rfl, hR.note hst notices⟩
  | consult hf => exact .inl ⟨congrArg Except.ok (hf _ _ (hR.bindings hst)), hst⟩
  | setVariable name value => exact .inl ⟨rfl, hR.setVariable hst name value⟩
  | build hf =>
    obtain ⟨hanswer, hstates⟩ := hR.build hf hst
    exact .inl ⟨congrArg Except.ok hanswer, hstates⟩
  | take b =>
    rcases hR.advance hst b with hstep | hleft
    · exact .inl ⟨congrArg Except.ok (hR.current hstep).symm, hstep⟩
    · exact .inr hleft
  | peek hl =>
    exact (hR.peek hl hst).imp_left fun hpeek => ⟨congrArg Except.ok hpeek.symm, hst⟩
  | current => exact .inl ⟨congrArg Except.ok (hR.current hst).symm, hst⟩
  | lineValue _ _ ih =>
    rcases ih (hR.setLineBreaks hst true) with ⟨hanswer, hstates⟩ | hleft
    · refine .inl ⟨hanswer, ?_⟩
      change R (State.setLineBreaks _ s.cursor.lineBreaksCount)
        (State.setLineBreaks _ t.cursor.lineBreaksCount)
      rw [hR.lineBreaks hst]
      exact hR.setLineBreaks hstates _
    · exact .inr (hR.escaped _ hleft)
  | overTokens a _ _ ihb ihf =>
    exact runOverTokens_sameRun hR.onward hR.step (fun a _ _ h => ihb a _ h)
      (fun a x _ _ h => ihf a x h) a (hR.step hst)

/-- `R` relates states that read the same, and every operation a parser is made of keeps it. -/
structure Congruence (may : ∀ α : Type, (ρ → α × ρ) → Prop) (R : State ρ → State ρ → Prop) :
    Prop where
  cursor : ∀ {s t}, R s t → s.cursor = t.cursor
  bindings : ∀ {s t}, R s t → s.bindings.Agrees t.bindings
  move : ∀ {s t}, R s t → ∀ c, R { s with cursor := c } { t with cursor := c }
  note : ∀ {s t}, R s t → ∀ notices,
    R { s with journal := s.journal ++ notices } { t with journal := t.journal ++ notices }
  setVariable : ∀ {s t}, R s t → ∀ name value,
    R { s with bindings := s.bindings.set name value }
      { t with bindings := t.bindings.set name value }
  build : ∀ {α : Type} {f : ρ → α × ρ}, may α f → ∀ {s t}, R s t →
    (f s.scene).1 = (f t.scene).1 ∧
      R { s with scene := (f s.scene).2 } { t with scene := (f t.scene).2 }

namespace Congruence

variable {R : State ρ → State ρ → Prop} (hR : Congruence may R) {s t : State ρ}
include hR

section Related

variable (hst : R s t)
include hst

theorem advance (b : Bool) : R (s.advance b) (t.advance b) := by
  unfold State.advance
  rw [← hR.cursor hst]
  exact hR.move hst _

theorem setLineBreaks (count : Bool) : R (s.setLineBreaks count) (t.setLineBreaks count) := by
  unfold State.setLineBreaks
  rw [← hR.cursor hst]
  exact hR.move hst _

theorem step : SameStep R s t := by
  have hadvance := hR.advance hst true
  have hcursor := hR.cursor hadvance
  refine ⟨hadvance, congrArg Cursor.current hcursor.symm, ?_⟩
  unfold State.AtEnd
  rw [hcursor, hR.cursor hst]

end Related

theorem lockstep : Lockstep may looks R fun _ => False where
  onward _ h := h
  escaped _ h := h
  current h := congrArg Cursor.current (hR.cursor h).symm
  lineBreaks h := congrArg Cursor.lineBreaksCount (hR.cursor h).symm
  bindings := hR.bindings
  advance h b := .inl (hR.advance h b)
  atEnd h _ := (hR.step h).atEnd
  peek _ _ _ h := .inl (congrArg (Cursor.peek · true) (hR.cursor h).symm)
  setLineBreaks h count := hR.setLineBreaks h count
  note h notices := hR.note h notices
  setVariable h name value := hR.setVariable h name value
  build := hR.build

end Congruence

/-- **A parser cannot tell states apart that read the same.** -/
theorem Composed.sameRun {R : State ρ → State ρ → Prop} (hR : Congruence may R) {p : Parser ρ α}
    (h : Composed may looks p) {s t : State ρ} (hst : R s t) : SameRun R (p.run s) (p.run t) :=
  (h.lockstep hR.lockstep hst).resolve_right id

/-! ## States that are alike -/

/-- A change of the scene gives the same answer on related scenes, and related scenes. -/
def Respects (rel : ρ → ρ → Prop) (α : Type) (f : ρ → α × ρ) : Prop :=
  ∀ r r', rel r r' → (f r).1 = (f r').1 ∧ rel (f r).2 (f r').2

/-- States that differ only where no parser looks: in scenes that `rel` relates, and in how the
table of variables is written. -/
structure State.Alike (rel : ρ → ρ → Prop) (s t : State ρ) : Prop where
  cursor : s.cursor = t.cursor
  bindings : s.bindings.Agrees t.bindings
  journal : s.journal = t.journal
  scene : rel s.scene t.scene

theorem State.Alike.congruence (rel : ρ → ρ → Prop) :
    Congruence (Respects rel) (State.Alike rel) where
  cursor h := h.cursor
  bindings h := h.bindings
  move h _ := { h with cursor := rfl }
  note h notices := { h with journal := congrArg (· ++ notices) h.journal }
  setVariable h name value := { h with bindings := h.bindings.set name value }
  build hf _ _ h :=
    ⟨(hf _ _ h.scene).1, h.cursor, h.bindings, h.journal, (hf _ _ h.scene).2⟩

theorem Composed.respects {rel : ρ → ρ → Prop} {p : Parser ρ α}
    (h : Composed (Respects rel) looks p) {s t : State ρ} (hst : s.Alike rel t) :
    SameRun (State.Alike rel) (p.run s) (p.run t) :=
  h.sameRun (State.Alike.congruence rel) hst

/-! ## The parsers of tokens, values and lines -/

theorem failAt_composed (t : Token) (fault : Fault) :
    Composed may looks (failAt t fault : Parser ρ α) := .fail _

theorem failIf_composed (b : Bool) (t : Token) (fault : Fault) :
    Composed may looks (failIf b t fault : Parser ρ Unit) := by
  unfold failIf
  split
  · exact .fail _
  · exact .pure ()

theorem noteIf_composed (b : Bool) (notices : Journal) :
    Composed may looks (noteIf b notices : Parser ρ Unit) := by
  unfold noteIf
  split
  · exact .note _
  · exact .pure ()

theorem unexpected_composed (t : Token) : Composed may looks (unexpected t : Parser ρ α) := .fail _

theorem unexpectedName_composed (t : Token) :
    Composed may looks (unexpectedName t : Parser ρ α) := .fail _

theorem unlessEnd_composed (t : Token) : Composed may looks (unlessEnd t : Parser ρ Token) := by
  unfold unlessEnd
  split
  · exact .fail _
  · exact .pure t

theorem next_composed : Composed may looks (next : Parser ρ Token) :=
  .bind (.take true) unlessEnd_composed

theorem expect_composed (symbol : Symbol) : Composed may looks (expect symbol : Parser ρ Unit) := by
  refine .bind next_composed fun t => ?_
  split
  · exact .pure ()
  · exact unexpected_composed t

theorem accept_composed (symbol : Symbol) : Composed may True (accept symbol : Parser ρ Bool) := by
  refine .bind (.peek trivial) fun t => ?_
  split
  · exact .bind (.take true) fun _ => .pure true
  · exact .pure false

theorem variableName_composed : Composed may looks (variableName : Parser ρ String) := by
  refine .bind (.take false) fun t => .bind (unlessEnd_composed t) fun t => ?_
  split
  · exact .pure _
  · exact failAt_composed _ _

theorem declaredName_composed : Composed may looks (declaredName : Parser ρ Token) := by
  refine .bind next_composed fun t => ?_
  split
  · exact .pure t
  · exact failAt_composed _ _

theorem separated_composed (separator : Symbol) {term : Token → Parser ρ α}
    (hterm : ∀ t, Composed may True (term t)) : Composed may True (separated separator term) :=
  .overTokens _ (fun _ t => .bind (hterm t) fun _ => .bind (accept_composed _) fun _ => .pure _)
    fun _ t => failAt_composed t _

theorem seekBrace_composed : Composed may looks (seekBrace : Parser ρ Unit) :=
  .overTokens _ (fun _ _ => .pure _) fun _ t => failAt_composed t _

theorem skipToClose_composed : Composed may looks (skipToClose : Parser ρ Unit) :=
  .overTokens _ (fun _ _ => .pure _) fun _ t => failAt_composed t _

theorem skipBlock_composed : Composed may looks (skipBlock : Parser ρ Unit) :=
  .bind seekBrace_composed fun _ => skipToClose_composed

theorem numeral_composed (t : Token) : Composed may looks (numeral t : Parser ρ Float) := by
  unfold numeral
  split
  · exact .pure _
  · exact failAt_composed _ _

theorem termOnLine_composed : Composed may looks (termOnLine : Parser ρ Token) := by
  refine .bind next_composed fun t => ?_
  split
  · exact unexpected_composed t
  · exact .pure t

theorem operand_composed (unbound : Value) (t : Token) :
    Composed may looks (operand unbound t : Parser ρ Value) := by
  unfold operand
  split
  · exact .bind (numeral_composed t) fun _ => .pure _
  · exact .bind (numeral_composed t) fun _ => .pure _
  · exact .pure _
  · refine .bind variableName_composed fun name =>
      .bind (.consult fun v w h => h name) fun found => ?_
    split
    · exact .pure _
    · exact .bind (.note _) fun _ => .pure _
  · exact failAt_composed _ _

theorem endOfNumber_composed : Composed may looks (endOfNumber : Parser ρ Unit) := by
  refine .bind (.take true) fun t => ?_
  split
  · exact .pure ()
  · split
    · exact failAt_composed _ _
    · exact failAt_composed _ _

theorem joined_composed : Composed may looks (joined : Parser ρ String) := by
  refine .bind termOnLine_composed fun t => ?_
  split
  · exact failAt_composed _ _
  · refine .bind (operand_composed _ t) fun value => ?_
    split
    · exact .pure _
    · exact failAt_composed _ _

theorem restOfText_composed (first : String) :
    Composed may looks (restOfText first : Parser ρ String) := by
  refine .overTokens _ (fun text t => ?_) fun _ _ => .pure _
  split
  · exact .pure _
  · split
    · exact .bind joined_composed fun _ => .pure _
    · exact failAt_composed _ _

theorem initializer_composed : Composed may looks (initializer : Parser ρ Value) := by
  refine .bind (.take true) fun t => ?_
  split
  · exact failAt_composed _ _
  split
  · refine .bind termOnLine_composed fun t => .bind (operand_composed _ t) fun value => ?_
    split
    · exact .bind endOfNumber_composed fun _ => .pure _
    · exact failAt_composed _ _
  · refine .bind (operand_composed _ t) fun value => ?_
    split
    · exact .bind endOfNumber_composed fun _ => .pure _
    · exact .bind (restOfText_composed _) fun _ => .pure _

theorem definitionLine_composed : Composed may looks (definitionLine : Parser ρ Unit) := by
  refine .bind variableName_composed fun name => .bind (.consult fun v w h => h.contains name)
    fun _ => .bind (noteIf_composed _ _) fun _ => .bind next_composed fun t => ?_
  split
  · exact .bind initializer_composed fun _ => .setVariable _ _
  · exact failAt_composed _ _

theorem variableDefinition_composed : Composed may looks (variableDefinition : Parser ρ Unit) :=
  .lineValue .definition definitionLine_composed

theorem optionalEqual_composed : Composed may True (optionalEqual : Parser ρ Unit) :=
  .bind (accept_composed _) fun _ => .pure ()

theorem magnitude_composed (t : Token) : Composed may looks (magnitude t : Parser ρ Float) := by
  unfold magnitude
  split
  · exact numeral_composed t
  · exact numeral_composed t
  · exact .bind variableName_composed fun name =>
      .bind (.consult fun v w h => h.lookupNumber name) fun _ => .bind (.note _) fun _ => .pure _
  · exact unexpectedName_composed t
  · exact unexpected_composed t

theorem signedNumber_composed (t : Token) :
    Composed may looks (signedNumber t : Parser ρ Float) := by
  unfold signedNumber
  split
  · exact .bind next_composed fun t => .bind (magnitude_composed t) fun _ => .pure _
  · exact magnitude_composed t

theorem number_composed : Composed may True (number : Parser ρ Float) :=
  .bind optionalEqual_composed fun _ => .bind next_composed signedNumber_composed

theorem word_composed : Composed may True (word : Parser ρ String) := by
  refine .bind optionalEqual_composed fun _ => .bind next_composed fun t => ?_
  split
  · exact .pure _
  · exact unexpected_composed t

theorem flag_composed : Composed may True (flag : Parser ρ Bool) := by
  refine .bind optionalEqual_composed fun _ => .bind next_composed fun t => ?_
  split
  · exact .pure _
  split
  · exact .pure _
  split
  · exact unexpectedName_composed t
  · exact unexpected_composed t

theorem keyword_composed (vocabulary : Vocabulary α) :
    Composed may True (keyword vocabulary : Parser ρ α) :=
  .bind word_composed fun _ => .bind (.note _) fun _ => .pure _

theorem textTerm_composed (t : Token) : Composed may looks (textTerm t : Parser ρ String) := by
  unfold textTerm
  split
  · exact .pure _
  · exact .bind variableName_composed fun name =>
      .bind (.consult fun v w h => h.lookupText name) fun _ => .bind (.note _) fun _ => .pure _
  · exact failAt_composed _ _

/-- A line value is read with line breaks counting from its start to its end. -/
theorem ReadsLineValue.exists_body {v : LineValue} {q : Parser ρ α} (h : ReadsLineValue v q) :
    ∃ p, q = withLineBreaks p ∧ Composed may True p := by
  cases h with
  | definition => exact ⟨_, rfl, definitionLine_composed⟩
  | text =>
    exact ⟨_, rfl, .bind optionalEqual_composed fun _ =>
      .bind (separated_composed _ textTerm_composed) fun _ => .pure _⟩
  | color =>
    exact ⟨_, rfl, .bind optionalEqual_composed fun _ =>
      .bind (separated_composed _ signedNumber_composed) fun _ => .pure _⟩

theorem ReadsLineValue.composed {v : LineValue} {q : Parser ρ α} (h : ReadsLineValue v q) :
    Composed may True q := by
  obtain ⟨p, rfl, hp⟩ := h.exists_body
  exact .lineValue h hp

theorem text_composed : Composed may True (text : Parser ρ String) := ReadsLineValue.text.composed

theorem color_composed : Composed may True (color : Parser ρ Color) := ReadsLineValue.color.composed

theorem nameOrText_composed : Composed may True (nameOrText : Parser ρ String) := by
  refine .bind optionalEqual_composed fun _ => .bind (.peek trivial) fun t => ?_
  split
  · exact text_composed
  · exact text_composed
  · exact word_composed

theorem discardedBlock_composed : Composed may True (discardedBlock : Parser ρ Unit) := by
  refine .bind (.peek trivial) fun t => ?_
  split
  · exact skipBlock_composed
  · exact unexpected_composed t

section Lines

variable {named : β → Token → Parser ρ β} (hnamed : ∀ b t, Composed may True (named b t))
include hnamed

theorem line_composed (b : β) (t : Token) : Composed may True (line named b t) := by
  unfold line
  split
  · exact .bind variableDefinition_composed fun _ => .pure b
  · split
    · exact .bind discardedBlock_composed fun _ => .pure b
    · exact hnamed b t
  · exact unexpected_composed t

theorem lines_composed (closing : TokenKind) (b : β) :
    Composed may True (lines closing named b) := by
  refine .overTokens _ (fun b t => ?_) fun b t => ?_
  · unfold lineOrClose
    split
    · exact .pure _
    · exact .bind (line_composed hnamed b t) fun _ => .pure _
  · unfold closeAtEnd
    split
    · exact .pure b
    · exact unexpected_composed t

theorem block_composed (b : β) : Composed may True (block named b) :=
  .bind (expect_composed _) fun _ => lines_composed hnamed _ b

end Lines

theorem Attribute.read_composed (a : Attribute β) :
    Composed may True (a.read : Parser ρ (β → β)) := by
  cases a with
  | color set => exact .bind color_composed fun _ => .pure _
  | number set => exact .bind number_composed fun _ => .pure _
  | flag set => exact .bind flag_composed fun _ => .pure _
  | text set => exact .bind text_composed fun _ => .pure _
  | keyword changes => exact keyword_composed changes

theorem Attribute.readLine_composed (attributes : Attributes β) (t : Token) :
    Composed may True (Attribute.readLine attributes t : Parser ρ (β → β)) := by
  unfold Attribute.readLine
  split
  · exact read_composed _
  · exact unexpectedName_composed t

end MaterialScript.Parser
