/-
How many steps a load makes.

Every loop takes a token in each of its rounds, so a round that goes on leaves fewer
tokens to the next one (`overTokens_round`). Declarations are prompt, one lemma a
parser in the order of the grammar; the script is a loop over them, and as a whole
it makes at most one step more than there are tokens (`script_walk`).
-/
import MaterialScript.Proofs.Steps

namespace MaterialScript

theorem Cursor.Leads.offset_le {c d : Cursor} (h : c.Leads d) : c.offset ≤ d.offset := by
  obtain ⟨ts, hts⟩ := h
  rw [hts.offset_eq]
  exact Nat.le_add_right ..

/-- A step moves on while tokens are left. -/
theorem Cursor.offset_lt_advance {c : Cursor} (h : c.rest ≠ []) (b : Bool) :
    c.offset < (c.advance b).offset := by
  have hmoved := c.length_rest_advance_lt b h
  obtain ⟨ts, hts⟩ := c.advance_leads b
  have hrest := congrArg List.length hts.rest
  rw [List.length_append] at hrest
  rw [hts.offset_eq]
  omega

/-- A search stops after its step, or goes on from further on. -/
theorem Cursor.advanceUntil_round {c : Cursor} (hends : Ends c.tokens) (kind : TokenKind)
    (b : Bool) :
    c.advanceUntil kind b = (c.advance b, 0) ∨
      c.offset < (c.advance b).offset ∧
        c.advanceUntil kind b =
          (((c.advance b).advanceUntil kind b).1, ((c.advance b).advanceUntil kind b).2 + 1) := by
  rw [advanceUntil_eq hends]
  split
  · exact .inl rfl
  · rename_i hfound
    exact .inr ⟨c.offset_lt_advance (rest_ne_nil_of_not_endsSearch hends hfound) b, rfl⟩

namespace Parser

section Loops

variable {ρ α β : Type}

/-- What a loop comes to in a round: it ends, at the end of the file or by what its body answers, or
it goes on with another round from further on. -/
inductive Round (body : α → Token → Parser ρ (Progress α β)) (finish : α → Token → Parser ρ β)
    (a : α) (s : State ρ) : Except ScriptError β × State ρ → Prop
  | atEnd : s.AtEnd →
      Round body finish a s ((finish a (s.advance true).cursor.current).run (s.advance true))
  | done {b : β} {u : State ρ} :
      (body a (s.advance true).cursor.current).run (s.advance true) = (.ok (.done b), u) →
      Round body finish a s (.ok b, u)
  | error {e : ScriptError} {u : State ρ} :
      (body a (s.advance true).cursor.current).run (s.advance true) = (.error e, u) →
      Round body finish a s (.error e, u)
  | more {a' : α} {u : State ρ} :
      (body a (s.advance true).cursor.current).run (s.advance true) = (.ok (.more a'), u) →
      s.cursor.offset < u.cursor.offset →
      Round body finish a s ((overTokens body finish a').run u)

/-- **Every round of a loop ends the loop or moves on.** -/
theorem overTokens_round (body : α → Token → Parser ρ (Progress α β))
    (finish : α → Token → Parser ρ β) (a : α) (s : State ρ) :
    Round body finish a s ((overTokens body finish a).run s) := by
  change Round body finish a s (runOverTokens body finish a s)
  by_cases hend : s.AtEnd
  · rw [runOverTokens_atEnd hend]
    exact .atEnd hend
  rcases hrun : (body a (s.advance true).cursor.current).run (s.advance true) with ⟨e | a' | b, u⟩
  · rw [runOverTokens_error hend hrun]
    exact .error hrun
  · rw [runOverTokens_more hend hrun]
    rw [State.AtEnd, not_or] at hend
    exact .more hrun
      ((Cursor.offset_lt_advance hend.1 true).trans_le (onward_of_run hrun).leads.offset_le)
  · rw [runOverTokens_done hend hrun]
    exact .done hrun

/-! ## Initializers as loops -/

/-- A loop that carries and answers the same under other names does the same. -/
theorem runOverTokens_map {α' β' : Type} {body : α → Token → Parser ρ (Progress α β)}
    {finish : α → Token → Parser ρ β} {body' : α' → Token → Parser ρ (Progress α' β')}
    {finish' : α' → Token → Parser ρ β'} (f : α → α') (g : β → β')
    (hbody : ∀ a t s, (body' (f a) t).run s = (((body a t).run s).1.map fun
      | .more a' => .more (f a')
      | .done b => .done (g b), ((body a t).run s).2))
    (hfinish : ∀ a t s, (finish' (f a) t).run s =
      (((finish a t).run s).1.map g, ((finish a t).run s).2)) (a : α) (s : State ρ) :
    runOverTokens body' finish' (f a) s =
      ((runOverTokens body finish a s).1.map g, (runOverTokens body finish a s).2) := by
  induction a, s using loop_induction body with
  | atEnd a s hend => rw [runOverTokens_atEnd hend, runOverTokens_atEnd hend, hfinish]
  | more a s a' u hend hrun ih =>
    rw [runOverTokens_more hend hrun, runOverTokens_more hend (by rw [hbody, hrun]; rfl), ih]
  | done a s b u hend hrun =>
    rw [runOverTokens_done hend hrun, runOverTokens_done hend (by rw [hbody, hrun]; rfl)]
    rfl
  | error a s e u hend hrun =>
    rw [runOverTokens_error hend hrun, runOverTokens_error hend (by rw [hbody, hrun]; rfl)]
    rfl

/-- A round over an initializer that has come to `value`: its first term with a minus in front, or a
string that is joined. -/
def initializerRound : Option Value → Token → Parser ρ (Progress (Option Value) Value)
  | none, t => do
    if t.endsLine then failAt t .emptyInitializer
    else if t.isSymbol .minus then
      let t ← termOnLine
      match ← operand (.number 0) t with
      | .number v => return .more (some (.number (-v)))
      | .text _ => failAt t (.typeMismatch "strings can not be negative")
    else return .more (some (← operand (.number 0) t))
  | some (.number v), t =>
    if t.endsLine then return .done (.number v)
    else if t.isSymbol .plus then
      failAt t (.typeMismatch "only strings can be combined with '+'")
    else failAt t (.unexpectedToken t.describe)
  | some (.text text), t => do
    if t.endsLine then return .done (.text text)
    else if t.isSymbol .plus then return .more (some (.text (text ++ (← joined))))
    else failAt t (.unexpectedToken t.describe)

/-- What an initializer comes to at the end of the file. -/
def initializerEnd : Option Value → Token → Parser ρ Value
  | none, t => failAt t .emptyInitializer
  | some value, _ => return value

theorem endOfNumber_run (s : State ρ) :
    (endOfNumber : Parser ρ Unit).run s =
      if (s.advance true).cursor.current.endsLine then (.ok (), s.advance true)
      else if (s.advance true).cursor.current.isSymbol .plus then
        (failAt (s.advance true).cursor.current
          (.typeMismatch "only strings can be combined with '+'")).run (s.advance true)
      else
        (failAt (s.advance true).cursor.current
          (.unexpectedToken (s.advance true).cursor.current.describe)).run (s.advance true) := by
  rw [endOfNumber, run_bind]
  simp only [take]
  split
  · rfl
  · split <;> rfl

/-- After a number, the loop over an initializer looks for the end of the line. -/
theorem initializerRound_number (v : Float) {s : State ρ} (hends : Ends s.cursor.tokens) :
    (overTokens initializerRound initializerEnd (some (.number v))).run s =
      (endOfNumber >>= fun _ => pure (.number v)).run s := by
  change runOverTokens initializerRound initializerEnd (some (.number v)) s = _
  rw [run_bind, endOfNumber_run]
  by_cases hend : s.AtEnd
  · obtain ⟨-, -, -, heof⟩ := Reads.step_of_atEnd hends hend
    rw [runOverTokens_atEnd hend, if_pos (Token.endsLine_of_isEndOfFile heof)]
    rfl
  by_cases hline : (s.advance true).cursor.current.endsLine
  · rw [if_pos hline, runOverTokens_done hend (by rw [initializerRound, if_pos hline]; rfl)]
    rfl
  rw [if_neg hline]
  by_cases hplus : (s.advance true).cursor.current.isSymbol .plus
  · rw [if_pos hplus, runOverTokens_error hend
      (by rw [initializerRound, if_neg hline, if_pos hplus]; rfl)]
    rfl
  · rw [if_neg hplus, runOverTokens_error hend
      (by rw [initializerRound, if_neg hline, if_neg hplus]; rfl)]
    rfl

/-- After a string, it reads the strings joined to it. -/
theorem initializerRound_text (text : String) (s : State ρ) :
    (overTokens initializerRound initializerEnd (some (.text text))).run s =
      (restOfText text >>= fun text => pure (.text text)).run s := by
  have hloop : (overTokens initializerRound initializerEnd (some (.text text))).run s =
      (((restOfText text).run s).1.map Value.text, ((restOfText text).run s).2) := by
    refine runOverTokens_map (fun text => some (Value.text text)) Value.text ?_ ?_ text s
    · intro text t s
      rw [initializerRound]
      split
      · rfl
      split
      · rw [run_bind, run_bind]
        rcases joined.run s with ⟨e | tail, u⟩ <;> rfl
      · rfl
    · exact fun _ _ _ => rfl
  rw [hloop, run_bind]
  rcases (restOfText text).run s with ⟨e | text, u⟩ <;> rfl

/-- **An initializer is read by a loop over its line.** -/
theorem initializer_eq_loop {s : State ρ} (hends : Ends s.cursor.tokens) :
    (initializer : Parser ρ Value).run s =
      (overTokens initializerRound initializerEnd none).run s := by
  change _ = runOverTokens initializerRound initializerEnd none s
  have htake : (take true).run s = (.ok (s.advance true).cursor.current, s.advance true) := rfl
  rw [initializer, run_bind_of_ok htake]
  by_cases hend : s.AtEnd
  · obtain ⟨-, -, -, heof⟩ := Reads.step_of_atEnd hends hend
    rw [runOverTokens_atEnd hend, if_pos (Token.endsLine_of_isEndOfFile heof)]
    rfl
  -- what follows the first term
  have later : ∀ {value : Value} {u : State ρ},
      (initializerRound none (s.advance true).cursor.current).run (s.advance true) =
        (.ok (.more (some value)), u) →
      runOverTokens initializerRound initializerEnd none s =
          (overTokens initializerRound initializerEnd (some value)).run u ∧
        Ends u.cursor.tokens := fun hrun =>
    ⟨runOverTokens_more hend hrun,
      ((s.advance_onward true).trans (onward_of_run hrun)).ends hends⟩
  have fails : ∀ {e : ScriptError} {u : State ρ},
      (initializerRound none (s.advance true).cursor.current).run (s.advance true) =
        (.error e, u) → runOverTokens initializerRound initializerEnd none s = (.error e, u) :=
    runOverTokens_error hend
  rw [initializerRound] at later fails
  split
  · rename_i hline
    rw [fails (by rw [if_pos hline]; rfl)]
    rfl
  rename_i hline
  rw [if_neg hline] at later fails
  split
  · rename_i hminus
    rw [if_pos hminus] at later fails
    rw [negated]
    rcases hterm : termOnLine.run (s.advance true) with ⟨e | t, u⟩
    · rw [run_bind_of_error hterm, fails (run_bind_of_error hterm)]
    rw [run_bind_of_ok hterm] at later fails ⊢
    rcases hvalue : (operand (.number 0) t).run u with ⟨e | text | v, w⟩
    · rw [run_bind_of_error hvalue, fails (run_bind_of_error hvalue)]
    · rw [run_bind_of_ok hvalue, fails (run_bind_of_ok hvalue)]
      rfl
    · obtain ⟨hloop, hends'⟩ := later (run_bind_of_ok hvalue)
      rw [run_bind_of_ok hvalue, hloop, initializerRound_number _ hends']
  · rename_i hminus
    rw [if_neg hminus] at later fails
    rw [unsigned]
    rcases hvalue : (operand (.number 0) (s.advance true).cursor.current).run (s.advance true)
      with ⟨e | text | v, w⟩
    · rw [run_bind_of_error hvalue, fails (run_bind_of_error hvalue)]
    · obtain ⟨hloop, -⟩ := later (run_bind_of_ok hvalue)
      rw [run_bind_of_ok hvalue, hloop, initializerRound_text]
    · obtain ⟨hloop, hends'⟩ := later (run_bind_of_ok hvalue)
      rw [run_bind_of_ok hvalue, hloop, initializerRound_number _ hends']

end Loops

/-! ## Declarations -/

section Grammar

variable {σ : Type} {mayEnd : Prop}

theorem newName_prompt (kind : ResourceKind) : Prompt mayEnd (newName (σ := σ) kind) :=
  .bind .declaredName fun name => .bind (.stays (refuseDuplicate_stays kind name)) fun _ => .pure _

theorem materialLine_prompt (b : Unit) (t : Token) : Prompt mayEnd (materialLine (σ := σ) b t) :=
  .bind (.readLine _ t) fun _ => .build _

theorem filterLine_prompt (b : Unit) (t : Token) : Prompt mayEnd (filterLine (σ := σ) b t) :=
  .bind (.readLine _ t) fun _ => .build _

theorem textureLine_prompt (b : Unit) (t : Token) : Prompt mayEnd (textureLine (σ := σ) b t) := by
  unfold textureLine
  split
  · exact .block filterLine_prompt ()
  · exact .bind (.readLine _ t) fun _ => .build _

theorem textureHeader_prompt : Prompt mayEnd (textureHeader (σ := σ)) :=
  .bind (newName_prompt _) fun _ => .bind (.expect _) fun _ => .bind (.build _) fun _ => .pure _

theorem boundTexture_prompt : Prompt mayEnd (boundTexture (σ := σ)) := by
  refine .bind .nameOrText fun name => .bind (.build _) fun found => ?_
  split
  · exact .pure _
  · exact .bind (.note _) fun _ => .pure _

theorem layerLine_prompt (b : Unit) (t : Token) : Prompt mayEnd (layerLine (σ := σ) b t) := by
  unfold layerLine
  split
  · exact .bind boundTexture_prompt fun _ => .build _
  · exact .bind (.readLine _ t) fun _ => .build _

theorem layerKind_prompt : Prompt mayEnd (layerKind (σ := σ)) := by
  refine .bind .next fun t => ?_
  split
  · split
    · exact .pure _
    · exact .failAt t _
  · exact .unexpected t

theorem componentLine_prompt (a : VertexAttribute) (t : Token) :
    Prompt mayEnd (componentLine (σ := σ) a t) :=
  .bind (.readLine _ t) fun _ => .pure _

theorem attributeHeader_prompt (kind : AttributeKind) :
    Prompt mayEnd (attributeHeader (σ := σ) kind) := by
  refine .bind ?_ fun name => .bind (.expect _) fun _ => .pure _
  unfold headerName
  split
  · refine .bind .next fun t => ?_
    split
    · exact .pure _
    · exact .failAt t _
  · exact .pure _

theorem attributeBlock_prompt (b : Unit) (t : Token) :
    Prompt mayEnd (attributeBlock (σ := σ) b t) := by
  unfold attributeBlock
  split
  · exact .unexpectedName t
  · exact .bind (attributeHeader_prompt _) fun a =>
      .bind (.blockBody componentLine_prompt a) fun _ => .build _

theorem requireVersion_stays (t : Token) : Stays (requireVersion (σ := σ) t) :=
  .bind (fun _ => rfl) fun _ => .failIf _ t _

theorem codeFromFile_prompt : Prompt mayEnd (codeFromFile (σ := σ)) := by
  refine .bind .text fun path => .bind (.build _) fun content => ?_
  split
  · exact .pure _
  · exact .bind (.note _) fun _ => .pure _

theorem stageLine_prompt (b : Unit) (t : Token) : Prompt mayEnd (stageLine (σ := σ) b t) := by
  unfold stageLine
  split
  · exact .bind (.keyword _) fun _ => .build _
  · exact .bind (.stays (requireVersion_stays t)) fun _ => .bind .text fun _ => .build _
  · exact .bind (.stays (requireVersion_stays t)) fun _ =>
      .bind codeFromFile_prompt fun _ => .build _
  · exact .unexpectedName t

theorem stageHeader_prompt (stage : ShaderType) : Prompt mayEnd (stageHeader (σ := σ) stage) := by
  refine .bind .next fun t => ?_
  split
  · exact .pure _
  split
  · exact .bind (.expect _) fun _ => .pure _
  · exact .failAt t _

theorem inputLayout_prompt : Prompt mayEnd (inputLayout (σ := σ)) := by
  refine .bind .next fun t => ?_
  split
  · exact .pure _
  · exact .bind (.build _) fun _ => .bind (.stays (.noteIf _ _)) fun _ =>
      .bind (.expect _) fun _ => .pure _
  · exact .unexpected t

variable [RenderSystem σ]

theorem stageBlock_prompt (b : Unit) (t : Token) : Prompt mayEnd (stageBlock (σ := σ) b t) := by
  unfold stageBlock
  split
  · exact .unexpectedName t
  · exact .bind (stageHeader_prompt _) fun _ =>
      .bind (.blockBody stageLine_prompt ()) fun _ => .stays (finishStage_stays _ _)

theorem dialectBlock_prompt (b : Unit) (t : Token) :
    Prompt mayEnd (dialectBlock (σ := σ) b t) := by
  unfold dialectBlock
  split
  · exact .unexpectedName t
  · refine .bind (.build _) fun backend => ?_
    split
    · exact .bind (.note _) fun _ => .skipBlock
    · exact .bind (.block stageBlock_prompt ()) fun _ => .stays finishDialect_stays

theorem shader_prompt : Prompt mayEnd (shader (σ := σ)) := by
  refine .bind .declaredName fun name => .bind (.build _) fun supported => ?_
  split
  · exact .bind (.note _) fun _ => .skipBlock
  · refine .bind ?_ fun _ => .blockBody dialectBlock_prompt ()
    exact .bind (.stays (refuseDuplicate_stays _ _)) fun _ =>
      .bind inputLayout_prompt fun _ => .build _

theorem materialHeader_prompt : Prompt mayEnd (materialHeader (σ := σ)) :=
  .bind (newName_prompt _) fun _ => .bind (.expect _) fun _ => .bind (.build _) fun _ => .pure _

theorem vertexFormatHeader_prompt : Prompt mayEnd (vertexFormatHeader (σ := σ)) :=
  .bind .declaredName fun _ => .bind (.stays (.failIf _ _ _)) fun _ =>
    .bind (.stays (refuseDuplicate_stays _ _)) fun _ => .bind (.expect _) fun _ =>
      .bind (.build _) fun _ => .pure _

theorem textureLayerHeader_prompt : Prompt mayEnd (textureLayerHeader (σ := σ)) :=
  .bind (newName_prompt _) fun _ => .bind layerKind_prompt fun _ => .bind (.expect _) fun _ =>
    .bind (.build _) fun _ => .pure _

theorem declaration_prompt (b : Unit) (t : Token) : Prompt mayEnd (declaration (σ := σ) b t) := by
  unfold declaration
  split
  · exact .bind materialHeader_prompt fun _ => .blockBody materialLine_prompt ()
  · exact shader_prompt
  · exact .bind vertexFormatHeader_prompt fun _ => .blockBody attributeBlock_prompt ()
  · exact .bind textureHeader_prompt fun _ => .bind (.blockBody textureLine_prompt ()) fun name =>
      .stays (finishTexture_stays _)
  · exact .bind textureLayerHeader_prompt fun _ => .blockBody layerLine_prompt ()
  · exact .unexpectedName t

/-- A script is read in at most one step more than there are tokens left. -/
theorem script_walk {s : State (Scene σ)} (hends : Ends s.cursor.tokens) :
    ∃ steps, Walk script s steps ∧ steps.length ≤ s.cursor.rest.length + 1 := by
  have hfinish : ∀ (b : Unit) (t : Token), t.isEndOfFile →
      Stays (closeAtEnd .endOfFile b t : Parser (Scene σ) Unit) := by
    intro b t _
    unfold closeAtEnd
    split <;> exact fun _ => rfl
  obtain ⟨steps, hsteps, hlate, -⟩ := Prompt.exists_walk_overTokens
    (fun b t _ => Prompt.lineOrClose declaration_prompt .endOfFile b t) hfinish () hends
  have hbound := hsteps.chain.length_le
  exact ⟨steps, hsteps, by omega⟩

end Grammar

end Parser

/-- Closing a sequence adds one token at most. -/
theorem Cursor.length_closed_le (tokens : List Token) :
    (closed tokens).length ≤ tokens.length + 1 := by
  unfold closed
  split
  · exact Nat.le_add_left 1 _
  · split <;> simp

namespace Loader

variable {σ : Type} [RenderSystem σ]

/-- **A load takes at most two steps more than it has tokens.**
- No parser moves back, leaves the sequence or changes it, whether it succeeds or fails.
- Every round of a loop over tokens ends the loop or goes on from further on. So does every step of
  a search for a token, and an initializer is read by such a loop too.
- The steps of any run, one for each round of a loop among them, lead from where it starts to where
  it ends. There are at most as many as tokens passed, besides those that start where none is left.
- For every sequence of tokens and everything a loader may hold, the script is read in such steps,
  and all together there are at most two more than tokens. -/
theorem load_steps (l : Loader σ) (files : Files) (tokens : List Token) :
    (∀ {α : Type} (p : Parser (Scene σ) α) (s : Parser.State (Scene σ)),
      s.cursor.offset ≤ (p.run s).2.cursor.offset ∧
        (p.run s).2.cursor.offset ≤ s.cursor.tokens.length ∧
        (p.run s).2.cursor.tokens = s.cursor.tokens) ∧
    (∀ {α β : Type} (body : α → Token → Parser (Scene σ) (Parser.Progress α β))
      (finish : α → Token → Parser (Scene σ) β) (a : α) (s : Parser.State (Scene σ)),
      Parser.Round body finish a s ((Parser.overTokens body finish a).run s)) ∧
    (∀ (c : Cursor) (kind : TokenKind) (b : Bool), Ends c.tokens →
      c.advanceUntil kind b = (c.advance b, 0) ∨
        c.offset < (c.advance b).offset ∧ c.advanceUntil kind b =
          (((c.advance b).advanceUntil kind b).1, ((c.advance b).advanceUntil kind b).2 + 1)) ∧
    (∀ s : Parser.State (Scene σ), Ends s.cursor.tokens →
      Parser.initializer.run s =
        (Parser.overTokens Parser.initializerRound Parser.initializerEnd none).run s) ∧
    (∀ {α : Type} (p : Parser (Scene σ) α) (s : Parser.State (Scene σ)) (steps : List Step),
      Parser.Walk p s steps → Parser.Chain s.cursor steps (p.run s).2.cursor ∧
        steps.length + (p.run s).2.cursor.rest.length ≤
          s.cursor.rest.length + steps.countP Step.late) ∧
    ∃ steps, Parser.Walk Parser.script (l.start files tokens) steps ∧
      steps.length ≤ tokens.length + 2 := by
  refine ⟨fun p s => ?_, Parser.overTokens_round,
    fun c kind b hends => c.advanceUntil_round hends kind b,
    fun s hends => Parser.initializer_eq_loop hends,
    fun p s steps h => ⟨h.chain, h.chain.length_le⟩, ?_⟩
  · have hleads := (p.onward s).leads
    refine ⟨hleads.offset_le, ?_, hleads.tokens_eq⟩
    rw [← hleads.tokens_eq]
    exact Cursor.offset_le_length _
  · obtain ⟨steps, hsteps, hlength⟩ :=
      Parser.script_walk (s := l.start files tokens) (Cursor.ends_ofTokens tokens)
    have hclosed : (l.start files tokens).cursor.rest.length ≤ tokens.length + 1 :=
      Cursor.length_closed_le tokens
    exact ⟨steps, hsteps, by omega⟩

end Loader

end MaterialScript
