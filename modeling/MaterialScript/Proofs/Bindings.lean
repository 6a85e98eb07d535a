/-
Where variables are bound.

A script binds a variable where it defines one and nowhere else. `Binds front p`
says that `p`, read after the tokens `front`, leaves the variables as they are
or passes a definition (`DefinesVariable`). So a dialect block that holds no
definition binds nothing (`dialectBody_bindings`).
-/
import MaterialScript.Grammar.Shader
import MaterialScript.Proofs.Blocks

namespace MaterialScript

/-- An `@`, a name right after it, and a `=` on the same line. -/
def IsDefinition (ts : List Token) : Prop :=
  ∃ sign name gap equal, ts = sign :: name :: gap ++ [equal] ∧ sign.isSymbol .atSign ∧
    name.kind = .name ∧ (∀ x ∈ gap, Cursor.skipsWhen true x) ∧ equal.isSymbol .equal

/-- A variable definition stands among these tokens. -/
def DefinesVariable (ts : List Token) : Prop := ∃ d, IsDefinition d ∧ d <:+: ts

namespace DefinesVariable

variable {ts us : List Token}

theorem mono (h : DefinesVariable ts) (hus : ts <:+: us) : DefinesVariable us := by
  obtain ⟨d, hd, hts⟩ := h
  exact ⟨d, hd, hts.trans hus⟩

theorem of_append_singleton {t : Token} (h : DefinesVariable (ts ++ [t]))
    (ht : t.isSymbol .equal = false) : DefinesVariable ts := by
  obtain ⟨d, hd, hts⟩ := h
  rcases List.infix_concat_iff.1 hts with ⟨front, heq⟩ | hts
  · obtain ⟨sign, name, gap, equal, rfl, -, -, -, hequal⟩ := hd
    rw [← List.append_assoc] at heq
    obtain ⟨-, hlast⟩ := List.append_inj' heq rfl
    cases hlast
    rw [hequal] at ht
    cases ht
  · exact ⟨d, hd, hts⟩

theorem exists_equal (h : DefinesVariable ts) : ∃ t ∈ ts, t.isSymbol .equal := by
  obtain ⟨_, ⟨sign, name, gap, equal, rfl, -, -, -, hequal⟩, hts⟩ := h
  exact ⟨equal, hts.subset (by simp), hequal⟩

end DefinesVariable

namespace Parser

variable {ρ α β : Type} {front : List Token}

/-- From `s` to `u`, read after the tokens `front`, the variables have stayed as they were, or a
definition has been passed. -/
def State.KeepsOrDefines (front : List Token) (s u : State ρ) : Prop :=
  u.bindings = s.bindings ∨ ∃ ts, s.cursor.Passes ts u.cursor ∧ DefinesVariable (front ++ ts)

namespace State.KeepsOrDefines

variable {s t u : State ρ}

theorem mono (h : KeepsOrDefines [] s u) : KeepsOrDefines front s u := by
  refine h.imp_right ?_
  rintro ⟨ts, hts, hdefines⟩
  exact ⟨ts, hts, hdefines.mono (List.suffix_append _ _).isInfix⟩

theorem trans (hst : KeepsOrDefines front s t) (htu : KeepsOrDefines [] t u)
    (hs : s.cursor.Leads t.cursor) (ht : t.cursor.Leads u.cursor) : KeepsOrDefines front s u := by
  obtain ⟨ts, hts⟩ := hs
  rcases hst with hsame | ⟨ts', hts', hdefines⟩
  · rcases htu with hsame' | ⟨us, hus, hdefines⟩
    · exact .inl (hsame'.trans hsame)
    · refine .inr ⟨ts ++ us, hts.trans hus, hdefines.mono ?_⟩
      rw [← List.append_assoc]
      exact (List.suffix_append _ _).isInfix
  · obtain ⟨us, hus⟩ := ht
    refine .inr ⟨ts' ++ us, hts'.trans hus, hdefines.mono ?_⟩
    rw [← List.append_assoc]
    exact (List.prefix_append _ _).isInfix

/-- What is read after a token, with the step to it. -/
theorem of_advance (hends : Ends s.cursor.tokens) (hend : ¬ s.AtEnd)
    (h : KeepsOrDefines [(s.advance true).cursor.current] (s.advance true) u) :
    KeepsOrDefines [] s u := by
  rcases h with hsame | ⟨ts, hts, hdefines⟩
  · exact .inl hsame
  obtain ⟨gap, hpasses, -⟩ := advance_passes hends hend
  refine .inr ⟨gap ++ [(s.advance true).cursor.current] ++ ts, hpasses.trans hts, hdefines.mono ?_⟩
  rw [List.nil_append, List.append_assoc]
  exact (List.suffix_append _ _).isInfix

end State.KeepsOrDefines

/-- Where `p` succeeds, read after the tokens `front`, it has bound no variable or passed a
definition. -/
def Binds (front : List Token) (p : Parser ρ α) : Prop :=
  ∀ ⦃s : State ρ⦄ ⦃a : α⦄ ⦃u : State ρ⦄, Ends s.cursor.tokens → p.run s = (.ok a, u) →
    s.KeepsOrDefines front u

namespace Binds

variable {p : Parser ρ α} {f : α → Parser ρ β}

theorem mono (h : Binds [] p) : Binds front p := fun _ _ _ hends hrun => (h hends hrun).mono

theorem keeps (h : ∀ s, (p.run s).2.bindings = s.bindings) : Binds front p := by
  intro s a u _ hrun
  have hsame := h s
  rw [hrun] at hsame
  exact .inl hsame

theorem fail (e : ScriptError) : Binds front (fail e : Parser ρ α) := keeps fun _ => rfl

theorem pure (a : α) : Binds front (Pure.pure a : Parser ρ α) := keeps fun _ => rfl

theorem note (notices : Journal) : Binds front (note notices : Parser ρ Unit) := keeps fun _ => rfl

theorem noteIf (b : Bool) (notices : Journal) :
    Binds front (noteIf b notices : Parser ρ Unit) := by
  unfold Parser.noteIf
  split
  · exact note notices
  · exact pure ()

theorem failIf (b : Bool) (t : Token) (fault : Fault) :
    Binds front (failIf b t fault : Parser ρ Unit) := by
  unfold Parser.failIf
  split
  · exact fail _
  · exact pure ()

theorem consult (f : Variables → α) : Binds front (consult f : Parser ρ α) := keeps fun _ => rfl

theorem build (f : ρ → α × ρ) : Binds front (build f) := keeps fun _ => rfl

theorem take (b : Bool) : Binds front (take b : Parser ρ Token) := keeps fun _ => rfl

theorem peek : Binds front (peek : Parser ρ Token) := keeps fun _ => rfl

theorem current : Binds front (current : Parser ρ Token) := keeps fun _ => rfl

theorem bind (hp : Binds front p) (hf : ∀ a, Binds [] (f a)) : Binds front (p >>= f) := by
  intro s b u hends hrun
  obtain ⟨a, t, hpt, hft⟩ := run_bind_eq_ok hrun
  have hst := onward_of_run hpt
  exact (hp hends hpt).trans (hf a (hst.ends hends) hft) hst.leads (onward_of_run hft).leads

theorem withLineBreaks (h : Binds front p) : Binds front (withLineBreaks p) := by
  intro s a u hends hrun
  rcases hp : p.run (s.setLineBreaks true) with ⟨answer, t⟩
  simp only [Parser.withLineBreaks, hp] at hrun
  cases hrun
  rcases h (s := s.setLineBreaks true) hends hp with hsame | ⟨ts, hts, hdefines⟩
  · exact .inl hsame
  · exact .inr ⟨ts, ⟨hts.rest, hts.passed⟩, hdefines⟩

/-- The body of a loop is read after the token it is handed. -/
theorem overTokens {body : α → Token → Parser ρ (Progress α β)} {finish : α → Token → Parser ρ β}
    (hbody : ∀ a t, Binds [t] (body a t)) (hfinish : ∀ a t, Binds [] (finish a t)) (a : α) :
    Binds front (overTokens body finish a) := by
  refine mono fun s b u hends hrun => ?_
  change runOverTokens body finish a s = _ at hrun
  induction a, s using loop_induction body with
  | atEnd a s hend =>
    rw [runOverTokens_atEnd hend] at hrun
    have hs := s.advance_onward true
    have hsame : s.KeepsOrDefines [] (s.advance true) := .inl rfl
    exact hsame.trans (hfinish a _ (hs.ends hends) hrun) hs.leads (onward_of_run hrun).leads
  | more a s a' t hend hround ih =>
    rw [runOverTokens_more hend hround] at hrun
    have hs := (s.advance_onward true).ends hends
    have hst := (s.advance_onward true).trans (onward_of_run hround)
    have hu : t.Onward u := by
      have := runOverTokens_onward body finish a' t
      rw [hrun] at this
      exact this
    exact (State.KeepsOrDefines.of_advance hends hend (hbody a _ hs hround)).trans
      (ih (hst.ends hends) hrun) hst.leads hu.leads
  | done a s b' t hend hround =>
    rw [runOverTokens_done hend hround] at hrun
    cases hrun
    have hs := (s.advance_onward true).ends hends
    exact State.KeepsOrDefines.of_advance hends hend (hbody a _ hs hround)
  | error a s e t hend hround =>
    rw [runOverTokens_error hend hround] at hrun
    cases hrun

end Binds

/-! ## Definitions -/

theorem definitionLine_passes {s u : State ρ} (hends : Ends s.cursor.tokens)
    (h : definitionLine.run s = (.ok (), u)) :
    ∃ name gap equal after, s.cursor.Passes (name :: gap ++ equal :: after) u.cursor ∧
      name.kind = .name ∧ (∀ x ∈ gap, s.cursor.skips x) ∧ equal.isSymbol .equal := by
  obtain ⟨x, v, hname, h⟩ := run_bind_eq_ok h
  obtain ⟨bound, _, hconsult, h⟩ := run_bind_eq_ok h
  cases hconsult
  obtain ⟨_, w, hnote, h⟩ := run_bind_eq_ok h
  obtain ⟨equal, r, hequal, h⟩ := run_bind_eq_ok h
  have hcursor : w.cursor = v.cursor :=
    (congrArg (·.2.cursor) hnote).symm.trans (Stays.noteIf _ _ v)
  obtain ⟨name, hpasses, hkind⟩ := variableName_passes hends hname
  have hw := hpasses.ends hends
  have hbreaks := (onward_of_run hname).lineBreaks
  rw [← hcursor] at hpasses hw hbreaks
  obtain ⟨gap, hpasses', hgap⟩ := next_passes hw hequal
  split at h
  · rename_i hsymbol
    obtain ⟨after, hafter⟩ := (onward_of_run h).leads
    refine ⟨name, gap, equal, after, ?_, hkind, fun x hx => ?_, hsymbol⟩
    · simpa using (hpasses.trans hpasses').trans hafter
    · have := hgap x hx
      rwa [Cursor.skips, hbreaks] at this
  · cases h

theorem variableDefinition_binds {t : Token} (ht : t.kind = .symbol .atSign) :
    Binds [t] (variableDefinition : Parser ρ Unit) := by
  intro s _ u hends hrun
  rcases hline : definitionLine.run (s.setLineBreaks true) with ⟨answer, v⟩
  simp only [variableDefinition, withLineBreaks, hline] at hrun
  cases hrun
  obtain ⟨name, gap, equal, after, hpasses, hname, hgap, hequal⟩ :=
    definitionLine_passes (s := s.setLineBreaks true) hends hline
  refine .inr ⟨name :: gap ++ equal :: after, ⟨hpasses.rest, hpasses.passed⟩,
    t :: name :: gap ++ [equal], ⟨t, name, gap, equal, rfl, ?_, hname, hgap, hequal⟩, ?_⟩
  · simp [Token.isSymbol, ht]
  · exact ⟨[], after, by simp⟩

/-! ## Values and lines -/

theorem bindings_bind {p : Parser ρ α} {f : α → Parser ρ β}
    (hp : ∀ s, (p.run s).2.bindings = s.bindings)
    (hf : ∀ a s, ((f a).run s).2.bindings = s.bindings) (s : State ρ) :
    ((p >>= f).run s).2.bindings = s.bindings := by
  have hs := hp s
  rw [run_bind]
  split
  · rename_i a t hrun
    rw [hrun] at hs
    exact (hf a t).trans hs
  · rename_i e t hrun
    rw [hrun] at hs
    exact hs

theorem bindings_overTokens {body : α → Token → Parser ρ (Progress α β)}
    {finish : α → Token → Parser ρ β} (hbody : ∀ a t s, ((body a t).run s).2.bindings = s.bindings)
    (hfinish : ∀ a t s, ((finish a t).run s).2.bindings = s.bindings) (a : α) (s : State ρ) :
    ((overTokens body finish a).run s).2.bindings = s.bindings :=
  runOverTokens_keeps (I := fun t => t.bindings = s.bindings) (fun _ h => h)
    (fun a x t h => (hbody a x t).trans h) (fun a x t h => (hfinish a x t).trans h) rfl

theorem bindings_next (s : State ρ) : (next.run s).2.bindings = s.bindings := by
  refine bindings_bind (fun _ => rfl) (fun t s => ?_) s
  unfold unlessEnd
  split <;> rfl

theorem bindings_expect (symbol : Symbol) (s : State ρ) :
    ((expect symbol).run s).2.bindings = s.bindings := by
  refine bindings_bind bindings_next (fun t s => ?_) s
  split <;> rfl

/-- Skipping binds nothing, whatever it passes. -/
theorem bindings_skipBlock (s : State ρ) : (skipBlock.run s).2.bindings = s.bindings :=
  bindings_bind (bindings_overTokens (fun _ _ _ => rfl) (fun _ _ _ => rfl) ())
    (fun _ => bindings_overTokens (fun _ _ _ => rfl) (fun _ _ _ => rfl) 0) s

theorem next_binds : Binds front (next : Parser ρ Token) := .keeps bindings_next

theorem expect_binds (symbol : Symbol) : Binds front (expect symbol : Parser ρ Unit) :=
  .keeps (bindings_expect symbol)

theorem accept_binds (symbol : Symbol) : Binds front (accept symbol : Parser ρ Bool) := by
  refine .bind .peek fun t => ?_
  split
  · exact .bind (.take true) fun _ => .pure true
  · exact .pure false

theorem variableName_binds : Binds front (variableName : Parser ρ String) := by
  refine .bind (.take false) fun t => .bind ?_ fun t => ?_
  · unfold unlessEnd
    split
    · exact .fail _
    · exact .pure t
  · split
    · exact .pure _
    · exact .fail _

theorem separated_binds (separator : Symbol) {term : Token → Parser ρ α}
    (hterm : ∀ t, Binds [t] (term t)) : Binds front (separated separator term) :=
  .overTokens (fun _ t => .bind (hterm t) fun _ => .bind (accept_binds _) fun _ => .pure _)
    (fun _ _ => .fail _) _

theorem optionalEqual_binds : Binds front (optionalEqual : Parser ρ Unit) :=
  .bind (accept_binds _) fun _ => .pure ()

theorem keyword_binds (vocabulary : Vocabulary α) :
    Binds front (keyword vocabulary : Parser ρ α) := by
  refine .bind (.bind optionalEqual_binds fun _ => .bind next_binds fun t => ?_) fun _ =>
    .bind (.note _) fun _ => .pure _
  split
  · exact .pure _
  · exact .fail _

theorem textTerm_binds (t : Token) : Binds front (textTerm t : Parser ρ String) := by
  unfold textTerm
  split
  · exact .pure _
  · exact .bind variableName_binds fun _ => .bind (.consult _) fun _ => .bind (.note _) fun _ =>
      .pure _
  · exact .fail _

theorem text_binds : Binds front (text : Parser ρ String) :=
  .withLineBreaks (.bind optionalEqual_binds fun _ =>
    .bind (separated_binds _ fun t => textTerm_binds t) fun _ => .pure _)

theorem discardedBlock_binds : Binds front (discardedBlock : Parser ρ Unit) := by
  refine .bind .peek fun t => ?_
  split
  · exact .keeps bindings_skipBlock
  · exact .fail _

section Lines

variable {named : β → Token → Parser ρ β} (hnamed : ∀ b t, Binds [] (named b t))
include hnamed

theorem line_binds (b : β) (t : Token) : Binds [t] (line named b t) := by
  unfold line
  split
  · rename_i hsign
    exact .bind (variableDefinition_binds hsign) fun _ => .pure b
  · split
    · exact .bind discardedBlock_binds fun _ => .pure b
    · exact (hnamed b t).mono
  · exact .fail _

theorem blockBody_binds (b : β) : Binds front (blockBody named b) := by
  refine .overTokens (fun b t => ?_) (fun b t => ?_) b
  · unfold lineOrClose
    split
    · exact .pure _
    · exact .bind (line_binds hnamed b t) fun _ => .pure _
  · unfold closeAtEnd
    split
    · exact .pure b
    · exact .fail _

end Lines

/-! ## Dialect blocks -/

section Dialects

variable {σ : Type}

theorem requireVersion_binds (t : Token) : Binds front (requireVersion (σ := σ) t) :=
  .bind (.build _) fun _ => .failIf _ _ _

theorem codeFromFile_binds : Binds front (codeFromFile (σ := σ)) := by
  refine .bind text_binds fun path => .bind (.build _) fun content => ?_
  split
  · exact .pure _
  · exact .bind (.note _) fun _ => .pure _

theorem stageLine_binds (b : Unit) (t : Token) : Binds front (stageLine (σ := σ) b t) := by
  unfold stageLine
  split
  · exact .bind (keyword_binds _) fun _ => .build _
  · exact .bind (requireVersion_binds t) fun _ => .bind text_binds fun _ => .build _
  · exact .bind (requireVersion_binds t) fun _ => .bind codeFromFile_binds fun _ => .build _
  · exact .fail _

theorem stageHeader_binds (stage : ShaderType) : Binds front (stageHeader (σ := σ) stage) := by
  refine .bind next_binds fun t => ?_
  split
  · exact .pure _
  split
  · exact .bind (expect_binds _) fun _ => .pure _
  · exact .fail _

variable [RenderSystem σ]

theorem finishStage_binds (stage : ShaderType) (entryPoint : String) :
    Binds front (finishStage (σ := σ) stage entryPoint) := by
  refine .bind .current fun _ => .bind (.build _) fun draft => ?_
  split
  · exact .fail _
  split
  · exact .note _
  · exact .bind (.build _) fun _ => .noteIf _ _

theorem stageBlock_binds (b : Unit) (t : Token) : Binds front (stageBlock (σ := σ) b t) := by
  unfold stageBlock
  split
  · exact .fail _
  · exact .bind (stageHeader_binds _) fun _ =>
      .bind (blockBody_binds stageLine_binds ()) fun _ => finishStage_binds _ _

theorem bindings_finishDialect (s : State (Scene σ)) :
    (finishDialect.run s).2.bindings = s.bindings := by
  refine bindings_bind (fun _ => rfl) (fun _ => bindings_bind (fun _ => rfl) fun name s => ?_) s
  unfold noteIf
  split <;> rfl

/-- A dialect block that holds no definition binds no variable. -/
theorem dialectBody_bindings {s u : State (Scene σ)} {inside : List Token}
    (hends : Ends s.cursor.tokens) (hrun : (blockBody stageBlock ()).run s = (.ok (), u))
    (hpasses : s.cursor.Passes (inside ++ [u.cursor.current]) u.cursor)
    (hclose : u.cursor.current.isSymbol .rightBrace) (hnone : ¬ DefinesVariable inside) :
    u.bindings = s.bindings := by
  have hbody : Binds [] (blockBody (stageBlock (σ := σ)) ()) := blockBody_binds stageBlock_binds ()
  refine (hbody hends hrun).resolve_right ?_
  rintro ⟨ts, hts, hdefines⟩
  obtain rfl := hts.tokens_unique hpasses
  have hkind : u.cursor.current.kind = .symbol .rightBrace := by
    simpa [Token.isSymbol] using hclose
  exact hnone (hdefines.of_append_singleton (by simp [Token.isSymbol, hkind]))

end Dialects

end Parser

end MaterialScript
