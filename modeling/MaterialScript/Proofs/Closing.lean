/-
Reading a block and skipping it pass the same tokens.

`Entered` lists the blocks a load comes to read, one constructor for each of
the nine kinds. `body_run_skipBlock`: where such a block is read to its end,
the cursor stands on the `}` that closes its `{`, and skipping the block from
its `{` ends there too. The lines of all blocks are balanced except those of a
shader, which may skip a dialect that starts after the `}` of the shader; a
shader stands outside all other blocks, so there the bracket check would have
failed.
-/
import MaterialScript.Loader
import MaterialScript.Proofs.Blocks
import MaterialScript.RenderSystem.Recorder

namespace MaterialScript.Parser

open Braces

variable {ρ α β : Type}

/-! ## Loops that only look -/

/-- A loop that only looks at its tokens is led from `a` to `a'` by the tokens `ts`. -/
inductive Scans (step : α → Token → Progress α β) : α → List Token → α → Prop
  | nil (a : α) : Scans step a [] a
  | cons {a a' a'' : α} {t : Token} {ts : List Token} : step a t = .more a' →
      Scans step a' ts a'' → Scans step a (t :: ts) a''

/-- If it pays heed to braces only, it passes these tokens, whitespace and all. -/
theorem Scans.run {step : α → Token → Progress α β} {finish : α → Token → Parser ρ β}
    (hneutral : ∀ a t, t.isBrace = false → step a t = .more a) {a a' : α} {ts after : List Token}
    (h : Scans step a ts a') {s : State ρ} (hrest : s.cursor.rest = ts ++ after)
    (hafter : after ≠ []) (hends : ∀ t ∈ ts, t.isEndOfFile = false) :
    ∃ u, s.cursor.Passes ts u.cursor ∧
      (overTokens (fun a t => return step a t) finish a).run s =
        (overTokens (fun a t => return step a t) finish a').run u := by
  induction h generalizing s with
  | nil a => exact ⟨s, .refl _, rfl⟩
  | @cons a a' a'' t ts hstep _ ih =>
    have hends' : ∀ u ∈ ts, u.isEndOfFile = false := fun u hu => hends u (by simp [hu])
    cases hskip : s.cursor.skips t with
    | true =>
      obtain rfl : a = a' := by
        rw [hneutral a t (Token.isBrace_of_skipsWhen hskip)] at hstep
        cases hstep
        rfl
      have hpasses := passes_advance_false hrest
      obtain ⟨u, hu, hrun⟩ := ih (hpasses.rest_eq hrest) hends'
      refine ⟨u, hpasses.trans hu, ?_⟩
      rw [← hrun]
      exact runOverTokens_skip hrest (by simp [hafter]) hskip
    | false =>
      obtain ⟨hcurrent, hpasses⟩ := advance_of_rest hrest hskip
      have hend : ¬ s.AtEnd := by simp [State.AtEnd, hrest, hcurrent, hends t]
      obtain ⟨u, hu, hrun⟩ := ih (hpasses.rest_eq hrest) hends'
      refine ⟨u, hpasses.trans hu, ?_⟩
      rw [← hrun]
      exact runOverTokens_more hend (by rw [hcurrent, hstep]; rfl)

/-- A brace next is the one the loop is handed. -/
theorem runOverTokens_brace {step : α → Token → Progress α β} {finish : α → Token → Parser ρ β}
    {a : α} {b : β} {s : State ρ} {t : Token} {after : List Token} (ht : t.isBrace)
    (hrest : s.cursor.rest = t :: after) (hstep : step a t = .done b) :
    ∃ u, (overTokens (fun a t => return step a t) finish a).run s = (.ok b, u) ∧
      s.cursor.Passes [t] u.cursor := by
  have hskip : s.cursor.skips t = false := by
    cases hskip : s.cursor.skips t with
    | true =>
      rw [Token.isBrace_of_skipsWhen hskip] at ht
      cases ht
    | false => rfl
  have heof : t.isEndOfFile = false := by
    rcases kind_of_isBrace ht with hkind | hkind <;> simp [Token.isEndOfFile, hkind]
  obtain ⟨hcurrent, hpasses⟩ := advance_of_rest hrest hskip
  have hend : ¬ s.AtEnd := by simp [State.AtEnd, hrest, hcurrent, heof]
  exact ⟨s.advance true, runOverTokens_done hend (by rw [hcurrent, hstep]; rfl), hpasses⟩

/-! ## Skipping a block that is there -/

/-- One step of seeking a `{`. -/
def openBrace (_ : Unit) (t : Token) : Progress Unit Unit :=
  if t.isSymbol .leftBrace then .done () else .more ()

/-- Seeking a `{` stops at nothing else. -/
theorem scans_openBrace {ts : List Token} (h : ∀ t ∈ ts, t.isSymbol .leftBrace = false) :
    Scans openBrace () ts () := by
  induction ts with
  | nil => exact .nil ()
  | cons t ts ih =>
    exact .cons (by simp [openBrace, h t]) (ih fun u hu => h u (by simp [hu]))

theorem openBrace_neutral (a : Unit) (t : Token) (h : t.isBrace = false) :
    openBrace a t = .more a := by
  rw [Token.isBrace, Bool.or_eq_false_iff] at h
  simp [openBrace, h.1]

/-- Seeking a `{` leads over what stands before it. -/
theorem seekBrace_passes {s : State ρ} {before after : List Token} {opening : Token}
    (hrest : s.cursor.rest = before ++ opening :: after)
    (hbefore : ∀ t ∈ before, t.isSymbol .leftBrace = false) (hopen : opening.isSymbol .leftBrace)
    (hends : ∀ t ∈ before, t.isEndOfFile = false) :
    ∃ u, seekBrace.run s = (.ok (), u) ∧ s.cursor.Passes (before ++ [opening]) u.cursor := by
  obtain ⟨u, hu, hseek⟩ := (scans_openBrace hbefore).run openBrace_neutral hrest (by simp) hends
  obtain ⟨v, hrun, hv⟩ := runOverTokens_brace (by simp [Token.isBrace, hopen])
    (hu.rest_eq hrest) (show openBrace () opening = .done () from if_pos hopen)
  exact ⟨v, hseek.trans hrun, hu.trans hv⟩

theorem closeBrace_neutral (depth : Nat) (t : Token) (h : t.isBrace = false) :
    closeBrace depth t = .more depth := by
  rcases closeBrace_cases depth t with ⟨next, hstep, hnext⟩ | ⟨-, -, hright⟩
  · rw [Token.depthChange_of_not_isBrace h] at hnext
    rw [hstep, show next = depth by omega]
  · simp [Token.isBrace, hright] at h

/-- Counting braces goes on while there are not more `}` than `{`. -/
theorem scans_closeBrace {ts : List Token} (depth : Nat)
    (hsane : ∀ p, p <+: ts → 0 ≤ (depth : Int) + net p) :
    ∃ depth' : Nat, Scans closeBrace depth ts depth' ∧ (depth' : Int) = depth + net ts := by
  induction ts generalizing depth with
  | nil => exact ⟨depth, .nil depth, by simp⟩
  | cons t ts ih =>
    have hbefore : 0 ≤ (depth : Int) + t.depthChange := by
      simpa using hsane [t] ⟨ts, rfl⟩
    rcases closeBrace_cases depth t with ⟨next, hstep, hnext⟩ | ⟨-, rfl, hright⟩
    · obtain ⟨depth', hscans, hdepth⟩ := ih next fun p hp => by
        have := hsane (t :: p) ((List.prefix_cons_inj t).2 hp)
        rw [net_cons] at this
        omega
      refine ⟨depth', .cons hstep hscans, ?_⟩
      rw [net_cons]
      omega
    · rw [Token.depthChange_of_isSymbol_rightBrace hright] at hbefore
      simp at hbefore

/-- Skipping goes to the `}` that closes the block it starts in. -/
theorem skipToClose_run {s : State ρ} {inside after : List Token} {close : Token}
    (hrest : s.cursor.rest = inside ++ close :: after) (hinside : Balanced inside)
    (hclose : close.isSymbol .rightBrace) (hends : ∀ t ∈ inside, t.isEndOfFile = false) :
    ∃ u, skipToClose.run s = (.ok (), u) ∧ s.cursor.Passes (inside ++ [close]) u.cursor := by
  obtain ⟨depth, hscans, hdepth⟩ := scans_closeBrace 0 fun p hp => by
    simpa using hinside.sane p hp
  obtain rfl : depth = 0 := by
    rw [hinside.settled] at hdepth
    omega
  obtain ⟨u, hu, hskip⟩ := hscans.run closeBrace_neutral hrest (by simp) hends
  have hkind : close.kind = .symbol .rightBrace := by simpa [Token.isSymbol] using hclose
  obtain ⟨v, hrun, hv⟩ := runOverTokens_brace (by simp [Token.isBrace, hclose])
    (hu.rest_eq hrest) (show closeBrace 0 close = .done () by simp [closeBrace, hkind])
  exact ⟨v, hskip.trans hrun, hu.trans hv⟩

/-- Skipping a block passes what stands before its `{`, and the block, if the end of the file does
not stand there. -/
theorem skipBlock_passes_within {s : State ρ} {before inside after : List Token}
    {opening close : Token}
    (hrest : s.cursor.rest = before ++ opening :: (inside ++ close :: after))
    (hbefore : ∀ t ∈ before, t.isSymbol .leftBrace = false) (hopen : opening.isSymbol .leftBrace)
    (hinside : Balanced inside) (hclose : close.isSymbol .rightBrace)
    (hgoesOn : ∀ t ∈ before ++ inside, t.isEndOfFile = false) :
    ∃ u, skipBlock.run s = (.ok (), u) ∧
      s.cursor.Passes (before ++ [opening] ++ (inside ++ [close])) u.cursor := by
  obtain ⟨u, hseek, hu⟩ := seekBrace_passes hrest hbefore hopen fun t ht =>
    hgoesOn t (List.mem_append_left _ ht)
  obtain ⟨v, hskip, hv⟩ := skipToClose_run (hu.rest_eq (by simpa using hrest)) hinside hclose
    fun t ht => hgoesOn t (List.mem_append_right _ ht)
  exact ⟨v, by rw [skipBlock, run_bind, hseek]; exact hskip, hu.trans hv⟩

/-- Skipping a block passes what stands before its `{`, and the block. -/
theorem skipBlock_passes {s : State ρ} {before inside after : List Token} {opening close : Token}
    (hends : EndsOnce s.cursor.tokens)
    (hrest : s.cursor.rest = before ++ opening :: (inside ++ close :: after))
    (hbefore : ∀ t ∈ before, t.isSymbol .leftBrace = false) (hopen : opening.isSymbol .leftBrace)
    (hinside : Balanced inside) (hclose : close.isSymbol .rightBrace) :
    ∃ u, skipBlock.run s = (.ok (), u) ∧
      s.cursor.Passes (before ++ [opening] ++ (inside ++ [close])) u.cursor := by
  have htokens : EndsOnce ((s.cursor.passed.reverse ++ (before ++ opening :: inside)) ++
      close :: after) := by
    rw [Cursor.tokens, hrest] at hends
    simpa using hends
  refine skipBlock_passes_within hrest hbefore hopen hinside hclose fun t ht => ?_
  have hmem : t ∈ before ++ opening :: inside := by
    rcases List.mem_append.1 ht with ht | ht
    · exact List.mem_append_left _ ht
    · exact List.mem_append_right _ (List.mem_cons_of_mem _ ht)
  exact htokens.not_isEndOfFile (by simp) t (List.mem_append_right _ hmem)

theorem retreat_false {c : Cursor} {t : Token} {before : List Token} (h : c.passed = t :: before) :
    c.retreat false = ⟨before, t :: c.rest, c.lineBreaksCount⟩ := by
  obtain ⟨_, rest, m⟩ := c
  cases h
  cases before with
  | nil => rfl
  | cons p before => simp [Cursor.retreat, Cursor.takeBack, Cursor.skipped]

/-- Skipping a block from its `{` goes where reading it to its `}` went. -/
theorem skipBlock_run {s t : State ρ} {opening close : Token} {before inside : List Token}
    (hends : EndsOnce s.cursor.tokens) (hpassed : s.cursor.passed = opening :: before)
    (hopen : opening.isSymbol .leftBrace) (hinside : Balanced inside)
    (hclose : close.isSymbol .rightBrace) (hpasses : s.cursor.Passes (inside ++ [close]) t.cursor)
    (hbreaks : t.cursor.lineBreaksCount = s.cursor.lineBreaksCount) :
    ∃ u, skipBlock.run { s with cursor := s.cursor.retreat false } = (.ok (), u) ∧
      u.cursor = t.cursor := by
  have hrest : s.cursor.rest = inside ++ close :: t.cursor.rest := by simpa using hpasses.rest
  rw [retreat_false hpassed]
  let start : State ρ :=
    { s with cursor := ⟨before, opening :: s.cursor.rest, s.cursor.lineBreaksCount⟩ }
  have hstart : EndsOnce start.cursor.tokens := by
    rw [Cursor.tokens, hpassed] at hends
    simpa [start, Cursor.tokens] using hends
  obtain ⟨u, hrun, hu⟩ := @skipBlock_passes ρ start [] _ _ _ _ hstart
    (congrArg (opening :: ·) hrest) (by simp) hopen hinside hclose
  have hback : start.cursor.Passes ([] ++ [opening] ++ (inside ++ [close])) t.cursor := by
    refine ⟨?_, ?_⟩
    · simp [start, hrest]
    · simp [hpasses.passed, hpassed, start]
  exact ⟨u, hrun, hu.unique hback ((onward_of_run hrun).lineBreaks.trans hbreaks.symm)⟩

/-! ## The blocks a load reads -/

/-- `lines closing named`, started in one state, comes to hand a line to `named` in another. -/
inductive HandsLine (closing : TokenKind) (named : β → Token → Parser ρ β) :
    β → State ρ → β → State ρ → Prop
  | here {b : β} {s : State ρ} : ¬ s.AtEnd → (s.advance true).cursor.current.kind = .name →
      (s.advance true).cursor.current.text ≠ "discard" →
      HandsLine closing named b s b (s.advance true)
  | later {b b' b'' : β} {s u v : State ρ} : ¬ s.AtEnd →
      (s.advance true).cursor.current.kind ≠ closing →
      (line named b (s.advance true).cursor.current).run (s.advance true) = (.ok b', u) →
      HandsLine closing named b' u b'' v → HandsLine closing named b s b'' v

/-- The kinds of blocks; the block of a vertex attribute starts from what its header says. -/
inductive BlockKind where
  | material
  | shader
  | dialect
  | stage
  | vertexFormat
  | component (a : VertexAttribute)
  | texture
  | filter
  | textureLayer

section Load

variable {σ : Type} [RenderSystem σ]

/-- Reads a block of a kind from after its `{` up to and with its `}`. -/
def BlockKind.body : BlockKind → Parser (Scene σ) Unit
  | material => blockBody materialLine ()
  | shader => blockBody dialectBlock ()
  | dialect => blockBody stageBlock ()
  | stage => blockBody stageLine ()
  | vertexFormat => blockBody attributeBlock ()
  | component a => do
    let _ ← blockBody componentLine a
  | texture => blockBody textureLine ()
  | filter => blockBody filterLine ()
  | textureLayer => blockBody layerLine ()

/-- A script started in `s₀` comes to read the line of a declaration with this keyword. -/
def Declares (s₀ : State (Scene σ)) (keyword : String) (s : State (Scene σ)) : Prop :=
  HandsLine .endOfFile declaration () s₀ () s ∧ s.cursor.current.text = keyword

/-- A script started in `s₀` comes to read the body of a block. -/
inductive Entered (s₀ : State (Scene σ)) : BlockKind → State (Scene σ) → Prop
  | material {s u : State (Scene σ)} {name : String} : Declares s₀ "material" s →
      materialHeader.run s = (.ok name, u) → Entered s₀ .material u
  | shader {s t u : State (Scene σ)} {name : Token} : Declares s₀ "shader" s →
      declaredName.run s = (.ok name, t) → RenderSystem.supportsShaders t.scene.system →
      (shaderHeader name).run t = (.ok (), u) → Entered s₀ .shader u
  | dialect {s t u : State (Scene σ)} {dialect : ShaderDialect} : Entered s₀ .shader s →
      HandsLine (.symbol .rightBrace) dialectBlock () s () t →
      ShaderDialect.ofKeyword? t.cursor.current.text = some dialect →
      (RenderSystem.backend t.scene.system).dialect? = some dialect →
      (expect .leftBrace).run t = (.ok (), u) → Entered s₀ .dialect u
  | stage {s t u : State (Scene σ)} {stage : ShaderType} {entryPoint : String} :
      Entered s₀ .dialect s → HandsLine (.symbol .rightBrace) stageBlock () s () t →
      ShaderType.vocabulary.find? t.cursor.current.text = some stage →
      (stageHeader stage).run t = (.ok entryPoint, u) → Entered s₀ .stage u
  | vertexFormat {s u : State (Scene σ)} {name : String} : Declares s₀ "vertexFormat" s →
      vertexFormatHeader.run s = (.ok name, u) → Entered s₀ .vertexFormat u
  | component {s t u : State (Scene σ)} {kind : AttributeKind} {a : VertexAttribute} :
      Entered s₀ .vertexFormat s → HandsLine (.symbol .rightBrace) attributeBlock () s () t →
      AttributeKind.ofKeyword? t.cursor.current.text = some kind →
      (attributeHeader kind).run t = (.ok a, u) → Entered s₀ (.component a) u
  | texture {s u : State (Scene σ)} {name : String} : Declares s₀ "texture" s →
      textureHeader.run s = (.ok name, u) → Entered s₀ .texture u
  | filter {s t u : State (Scene σ)} : Entered s₀ .texture s →
      HandsLine (.symbol .rightBrace) textureLine () s () t →
      t.cursor.current.text = "filter" → (expect .leftBrace).run t = (.ok (), u) →
      Entered s₀ .filter u
  | textureLayer {s u : State (Scene σ)} {name : String} : Declares s₀ "textureLayer" s →
      textureLayerHeader.run s = (.ok name, u) → Entered s₀ .textureLayer u

end Load

/-! ## Where those blocks stand -/

/-- The line that is handed over is opened by a name. -/
theorem HandsLine.opened {closing : TokenKind} {named : β → Token → Parser ρ β} {b b' : β}
    {s t : State ρ} (h : HandsLine closing named b s b' t) : t.cursor.current.kind = .name := by
  induction h with
  | here _ hname _ => exact hname
  | later _ _ _ _ ih => exact ih

theorem HandsLine.onward {closing : TokenKind} {named : β → Token → Parser ρ β} {b b' : β}
    {s t : State ρ} (h : HandsLine closing named b s b' t) : s.Onward t := by
  induction h with
  | here => exact State.advance_onward _ _
  | later _ _ hline _ ih =>
    exact ((State.advance_onward _ true).trans (onward_of_run hline)).trans ih

/-- The lines before, and the name that opens the line handed over. -/
theorem HandsLine.reads {closing : TokenKind} {named : β → Token → Parser ρ β} {b b' : β}
    {s t : State ρ} (h : HandsLine closing named b s b' t) {K : List Token → Prop} (hK : Stacks K)
    (hnamed : ∀ m b t, Reads m (named b t) fun _ vs => K vs) (hends : Ends s.cursor.tokens) :
    ∃ ts, s.cursor.Passes ts t.cursor ∧ K (visible s.cursor.lineBreaksCount ts) := by
  induction h with
  | here hend hname =>
    obtain ⟨ts, hts, hvisible, -⟩ := Reads.step_of_not_atEnd hends hend
    refine ⟨ts, hts, ?_⟩
    rw [hvisible]
    exact hK.balanced _ (Plain.singleton (Token.isBrace_of_name hname)).balanced
  | @later b b' _ s u v hend _ hline _ ih =>
    obtain ⟨ts, hts, hvisible, -⟩ := Reads.step_of_not_atEnd hends hend
    obtain ⟨us, hus, hread⟩ := line_reads hK (hnamed s.cursor.lineBreaksCount) b
      (s.advance true).cursor.current (s := s.advance true) (hts.ends hends) rfl hline
    have hbreaks : u.cursor.lineBreaksCount = s.cursor.lineBreaksCount :=
      (onward_of_run hline).lineBreaks
    obtain ⟨vs, hvs, hrest⟩ := ih ((hts.trans hus).ends hends)
    refine ⟨ts ++ us ++ vs, (hts.trans hus).trans hvs, ?_⟩
    rw [hbreaks] at hrest
    rw [visible_append, visible_append, hvisible]
    exact hK.append _ _ hread hrest

section Load

variable {σ : Type} [RenderSystem σ] {s₀ s : State (Scene σ)} {kind : BlockKind}

omit [RenderSystem σ] in
theorem inputLayout_endsOn : EndsOn (inputLayout (σ := σ)) fun _ c => c.isSymbol .leftBrace := by
  intro s a u hrun
  obtain ⟨t, v, hnext, hrun⟩ := run_bind_eq_ok hrun
  split at hrun
  · rename_i hkind
    cases hrun
    rw [EndsOn.next hnext]
    simp [Token.isSymbol, hkind]
  · exact EndsOn.bind (fun _ => .bind fun _ => .bind_stays (.expect _) fun _ _ => rfl) hrun
  · cases hrun

omit [RenderSystem σ] in
theorem stageHeader_endsOn (stage : ShaderType) :
    EndsOn (stageHeader (σ := σ) stage) fun _ c => c.isSymbol .leftBrace := by
  intro s a u hrun
  obtain ⟨t, v, hnext, hrun⟩ := run_bind_eq_ok hrun
  split at hrun
  · rename_i hopen
    cases hrun
    rw [EndsOn.next hnext]
    exact hopen
  split at hrun
  · exact EndsOn.bind_stays (.expect _) (fun _ _ => rfl) hrun
  · cases hrun

/-- A body starts after a `{`, to which the load has come. -/
theorem Entered.opens (h : Entered s₀ kind s) :
    s₀.Onward s ∧ s.cursor.current.isSymbol .leftBrace := by
  have step : ∀ {α : Type} {p : Parser (Scene σ) α} {s t : State (Scene σ)} {a : α},
      s₀.Onward s → p.run s = (.ok a, t) → s₀.Onward t :=
    fun hs hrun => hs.trans (onward_of_run hrun)
  induction h with
  | material hline hrun =>
    exact ⟨step hline.1.onward hrun,
      EndsOn.bind (fun _ => .bind_stays (.expect _) fun _ _ => rfl) hrun⟩
  | shader hline hname _ hrun =>
    refine ⟨step (step hline.1.onward hname) hrun, ?_⟩
    exact EndsOn.bind (fun _ => .bind_stays inputLayout_endsOn fun _ _ => rfl) hrun
  | dialect _ hline _ _ hrun ih =>
    exact ⟨step (ih.1.trans hline.onward) hrun, EndsOn.expect _ hrun⟩
  | stage _ hline _ hrun ih =>
    exact ⟨step (ih.1.trans hline.onward) hrun, stageHeader_endsOn _ hrun⟩
  | vertexFormat hline hrun =>
    refine ⟨step hline.1.onward hrun, ?_⟩
    exact EndsOn.bind (fun _ => .bind fun _ => .bind fun _ =>
      .bind_stays (.expect _) fun _ _ => rfl) hrun
  | component _ hline _ hrun ih =>
    exact ⟨step (ih.1.trans hline.onward) hrun,
      EndsOn.bind (fun _ => .bind_stays (.expect _) fun _ _ => rfl) hrun⟩
  | texture hline hrun =>
    exact ⟨step hline.1.onward hrun,
      EndsOn.bind (fun _ => .bind_stays (.expect _) fun _ _ => rfl) hrun⟩
  | filter _ hline _ hrun ih =>
    exact ⟨step (ih.1.trans hline.onward) hrun, EndsOn.expect _ hrun⟩
  | textureLayer hline hrun =>
    exact ⟨step hline.1.onward hrun,
      EndsOn.bind (fun _ => .bind fun _ => .bind_stays (.expect _) fun _ _ => rfl) hrun⟩

/-- No block but that of a shader is open where the body of a shader starts. -/
theorem Entered.net_shader (h : Entered s₀ .shader s) (hstart : s₀.cursor.passed = [])
    (hends : Ends s₀.cursor.tokens) (hbalanced : Balanced s₀.cursor.tokens) :
    net s.cursor.passed.reverse = 1 := by
  cases h with
  | @shader r t _ name hline hname _ hrun =>
    obtain ⟨ts, hts, hlines⟩ := hline.1.reads stacks_sinks (fun _ => declaration_reads) hends
    obtain ⟨us, hus, hkind, hname⟩ := declaredName_reads (hts.ends hends) rfl hname
    obtain ⟨vs, hvs, hheading⟩ := shaderHeader_reads name ((hts.trans hus).ends hends) rfl hrun
    have hall := (hts.trans hus).trans hvs
    have hpassed : s.cursor.passed.reverse = ts ++ us ++ vs := by
      rw [hall.passed, hstart]
      simp
    -- what came before the keyword is balanced, or the whole script is not
    have hbefore : net ts = 0 := by
      have hsane := hbalanced.sane ts ⟨us ++ vs ++ s.cursor.rest, by
        rw [Cursor.tokens, hstart, hall.rest]
        simp⟩
      have hsinks := hlines.net_nonpos
      rw [net_visible] at hsinks
      omega
    have hheader : net us + net vs = 1 := by
      have hwords := net_visible r.cursor.lineBreaksCount us
      have := (hheading hkind).heading.net_eq
      rw [hname, net_cons, net_nil] at hwords
      rw [net_cons, net_visible] at this
      omega
    rw [hpassed, net_append, net_append]
    omega

/-- What a body passes. -/
theorem BlockKind.body_reads (kind : BlockKind) (m : Bool) :
    Reads m (kind.body (σ := σ)) fun _ vs =>
      Closing (fun inside => Sinks inside ∧ (kind ≠ .shader → Balanced inside)) vs := by
  have balanced : ∀ {p : Parser (Scene σ) Unit}, Reads m p (fun _ vs => Closing Balanced vs) →
      Reads m p fun _ vs =>
        Closing (fun inside => Sinks inside ∧ (kind ≠ .shader → Balanced inside)) vs := by
    intro p hp
    exact hp.mono fun _ vs h => h.mono fun inside hinside => ⟨hinside.sinks, fun _ => hinside⟩
  cases kind with
  | material => exact balanced (blockBody_reads stacks_balanced materialLine_reads ())
  | shader =>
    exact (blockBody_reads stacks_sinks dialectBlock_reads ()).mono fun _ vs h =>
      h.mono fun inside hinside => ⟨hinside, fun h => absurd rfl h⟩
  | dialect => exact balanced (blockBody_reads stacks_balanced stageBlock_reads ())
  | stage => exact balanced (blockBody_reads stacks_balanced stageLine_reads ())
  | vertexFormat => exact balanced (blockBody_reads stacks_balanced attributeBlock_reads ())
  | component a =>
    refine balanced (.bind (blockBody_reads stacks_balanced componentLine_reads a) fun _ =>
      .pure fun us hus => ?_)
    rw [List.append_nil]
    exact hus
  | texture => exact balanced (blockBody_reads stacks_balanced textureLine_reads ())
  | filter => exact balanced (blockBody_reads stacks_balanced filterLine_reads ())
  | textureLayer => exact balanced (blockBody_reads stacks_balanced layerLine_reads ())

theorem BlockKind.body_endsOn (kind : BlockKind) :
    EndsOn (kind.body (σ := σ)) fun _ c => c.isSymbol .rightBrace := by
  cases kind with
  | component a => exact .bind_stays (blockBody_endsOn _ a) fun _ _ => rfl
  | _ => exact blockBody_endsOn _ ()

/-- A body that is read to its end has passed a balanced stretch and a `}`. -/
theorem Entered.body_passes {t : State (Scene σ)} (h : Entered s₀ kind s)
    (hstart : s₀.cursor.passed = []) (hends : Ends s₀.cursor.tokens)
    (hbalanced : Balanced s₀.cursor.tokens) (hrun : kind.body.run s = (.ok (), t)) :
    ∃ inside close, s.cursor.Passes (inside ++ [close]) t.cursor ∧ t.cursor.current = close ∧
      Balanced inside ∧ close.isSymbol .rightBrace := by
  have htokens := h.opens.1.leads.tokens_eq
  obtain ⟨ts, hts, inside', close', hvisible, ⟨hsinks, hother⟩, -⟩ :=
    kind.body_reads s.cursor.lineBreaksCount (h.opens.1.ends hends) rfl hrun
  have hclose := kind.body_endsOn hrun
  obtain ⟨inside, hpasses, hinside⟩ := passes_close hts hvisible hclose
  refine ⟨inside, t.cursor.current, hpasses, rfl, ?_, hclose⟩
  refine balanced_of_visible (m := s.cursor.lineBreaksCount) ?_
  rw [hinside]
  by_cases hkind : kind = .shader
  · -- what comes before the `}` of a shader leaves one brace open, so the body cannot sink
    subst hkind
    have hdepth := h.net_shader hstart hends hbalanced
    have hsane := hbalanced.sane (s.cursor.passed.reverse ++ (inside ++ [t.cursor.current]))
      ⟨t.cursor.rest, by rw [List.append_assoc, ← hpasses.rest, ← Cursor.tokens, htokens]⟩
    rw [net_append, net_append, hdepth, net_cons, net_nil,
      Token.depthChange_of_isSymbol_rightBrace hclose] at hsane
    refine hsinks.resolve_right ?_
    rw [← hinside, net_visible]
    omega
  · exact hother hkind

/-- **Reading a block and skipping it pass the same tokens.** In every load of tokens that the
bracket check accepts, with the end of the file last and nowhere else: where the body of a block is
read to its end, it has passed a balanced stretch and the `}` that closes the `{` before it, and
skipping the block from before its `{` succeeds and ends in the same place. -/
theorem body_run_skipBlock {l : Loader σ} {files : Files} {tokens : List Token}
    (hcheck : Brackets.check tokens = .ok ()) (hends : EndsOnce tokens) {kind : BlockKind}
    {s t : State (Scene σ)} (hentered : Entered (l.start files tokens) kind s)
    (hrun : kind.body.run s = (.ok (), t)) :
    ∃ opening before inside close,
      s.cursor.passed = opening :: before ∧ opening.isSymbol .leftBrace ∧
      s.cursor.Passes (inside ++ [close]) t.cursor ∧ t.cursor.current = close ∧
      Balanced inside ∧ close.isSymbol .rightBrace ∧
      ∃ u, skipBlock.run { s with cursor := s.cursor.retreat false } = (.ok (), u) ∧
        u.cursor = t.cursor := by
  have htokens : (l.start files tokens).cursor.tokens = tokens := Cursor.rest_ofTokens hends
  have hbalanced : Balanced (l.start files tokens).cursor.tokens := by
    rw [htokens]
    exact Brackets.balanced_of_check hcheck
  rw [← htokens] at hends
  obtain ⟨inside, close, hpasses, hcurrent, hinside, hclose⟩ :=
    hentered.body_passes rfl hends.ends hbalanced hrun
  obtain ⟨honward, hopen⟩ := hentered.opens
  have hkind : s.cursor.current.kind = .symbol .leftBrace := by simpa [Token.isSymbol] using hopen
  obtain ⟨before, hpassed⟩ := Cursor.exists_passed (c := s.cursor) (by simp [hkind])
  have hskip := skipBlock_run (honward.endsOnce hends) hpassed hopen hinside hclose hpasses
    (onward_of_run hrun).lineBreaks
  exact ⟨s.cursor.current, before, inside, close, hpassed, hopen, hpasses, hcurrent, hinside,
    hclose, hskip⟩

end Load

/-- A shader whose block holds nothing but a dialect to skip. -/
theorem body_run_skipBlock_foreign_dialect :
    let name (text : String) : Token := ⟨.name, text, .start⟩
    let symbol (s : Symbol) : Token := .bare (.symbol s) .start
    let tokens := [name "shader", ⟨.string, "s", .start⟩, symbol .leftBrace, name "hlsl5",
      symbol .leftBrace, symbol .leftBrace, symbol .rightBrace, symbol .rightBrace,
      symbol .rightBrace, .bare .endOfFile .start]
    let start := (Loader.new Recorder.default "/").start (fun _ => .error .notFound) tokens
    ∃ s t, Entered start .shader s ∧ BlockKind.shader.body.run s = (.ok (), t) ∧
      ∃ u, skipBlock.run { s with cursor := s.cursor.retreat false } = (.ok (), u) ∧
        u.cursor = t.cursor := by
  intro name symbol tokens start
  let declared := (declaredName.run (start.advance true)).2
  let headed := ((shaderHeader ⟨.string, "s", .start⟩).run declared).2
  have hentered : Entered start .shader headed :=
    .shader ⟨.here (by decide +kernel) rfl (by decide), rfl⟩ rfl rfl rfl
  have hanswer : (BlockKind.shader.body.run headed).1 = .ok () := by decide +kernel
  have hrun : BlockKind.shader.body.run headed = (.ok (), (BlockKind.shader.body.run headed).2) :=
    Prod.ext hanswer rfl
  have hends : EndsOnce tokens := ⟨tokens.dropLast, .bare .endOfFile .start, rfl, rfl, by decide⟩
  obtain ⟨_, _, _, _, -, -, -, -, -, -, hskip⟩ := body_run_skipBlock rfl hends hentered hrun
  exact ⟨headed, _, hentered, hrun, hskip⟩

end MaterialScript.Parser
