/-
What the backend of a render system decides.

Without a renderer every dialect block is skipped, with one its own dialect is
read. Two loads of one text that differ in this alone stay together line by
line (`State.SameButCode`): the block that one reads and the other skips ends
at the same `}` (`activeDialect_skips`), what it does to the scene is done to
the code of the shader, and it binds nothing if it holds no definition. So the
backend decides what code the shaders have, and nothing else
(`readSource_backend`).
-/
import MaterialScript.Proofs.Bindings
import MaterialScript.Proofs.Declarations
import MaterialScript.Proofs.Failure
import MaterialScript.Proofs.Registration
import MaterialScript.Proofs.Skips

namespace MaterialScript

open Braces

/-! ## Scenes with and without code -/

/-- The same resources, with shaders that have not been given any code. -/
def Resources.withoutCode (r : Resources) : Resources :=
  { r with shaders := r.shaders.map fun shader => .ofLayout shader.inputLayout }

theorem Resources.declares_withoutCode (r : Resources) (kind : ResourceKind) (name : String) :
    r.withoutCode.declares kind name = r.declares kind name := by
  cases kind
  case shader => exact Catalog.contains_map _ _ name
  all_goals rfl

theorem Resources.layouts_withoutCode (r : Resources) :
    (r.withoutCode.shaders.entries.map fun (name, shader) => (name, shader.inputLayout)) =
      r.shaders.entries.map fun (name, shader) => (name, shader.inputLayout) := by
  simp [withoutCode, Catalog.map, Shader.ofLayout, Function.comp_def]

theorem Resources.shaders_withoutCode (r : Resources) {entry : String × Shader}
    (h : entry ∈ r.withoutCode.shaders.entries) :
    entry.2.stages = [] ∧ entry.2.compiled = false := by
  obtain ⟨_, -, rfl⟩ := List.mem_map.1 h
  exact ⟨rfl, rfl⟩

/-- A load has built `s`, and one without a renderer `t`: they differ in the code of the shaders, in
what has been said of a stage, and in what no declaration looks at. -/
structure Scene.SameButCode (s t : Scene Recorder) : Prop where
  resources : t.toResources = s.toResources.withoutCode
  texture : t.drafts.texture = s.drafts.texture
  files : t.files = s.files
  missing : t.system.missing = s.system.missing
  supportsShaders : t.system.supportsShaders = s.system.supportsShaders
  backend : t.system.backend = .none

/-- Which images are missing decides which textures can be made. -/
theorem TextureDraft.make?_missing (d : TextureDraft) {r r' : Recorder}
    (h : r'.missing = r.missing) : (d.make? r').1 = (d.make? r).1 := by
  unfold make?
  split
  · rfl
  · simp only [RenderSystem.loadTexture, h]

/-- What a declaration does before and after its lines does not depend on code. -/
theorem declarationChange_sameButCode {α : Type} {f : Scene Recorder → α × Scene Recorder}
    (hf : DeclarationChange α f) : Parser.Respects Scene.SameButCode α f := by
  rintro s ⟨resources, system, drafts, files, requested⟩ h
  obtain rfl : resources = s.toResources.withoutCode := h.resources
  cases hf
  case declares kind name => exact ⟨(Resources.declares_withoutCode _ kind name).symm, h⟩
  case supportsShaders => exact ⟨h.supportsShaders.symm, h⟩
  case layoutNamed name => exact ⟨rfl, h⟩
  case addMaterial name => exact ⟨rfl, { h with resources := rfl }⟩
  case addVertexFormat name => exact ⟨rfl, { h with resources := rfl }⟩
  case addTextureLayer name kind => exact ⟨rfl, { h with resources := rfl }⟩
  case startTexture => exact ⟨rfl, { h with texture := rfl }⟩
  case takeTexture => exact ⟨h.texture.symm, { h with texture := rfl }⟩
  case addShader name layout =>
    have hinsert := Catalog.map_insert (fun shader : Shader => Shader.ofLayout shader.inputLayout)
      s.shaders name (.ofLayout (layout.map Recorder.formatOf))
    refine ⟨rfl, { h with resources := ?_ }⟩
    exact congrArg (fun c => { s.toResources with shaders := c }) hinsert.symm
  case addTexture name draft =>
    have hmade := draft.make?_missing h.missing
    obtain ⟨paths, hsystem, -⟩ := draft.make?_recorder s.system
    obtain ⟨paths', hsystem', -⟩ := draft.make?_recorder system
    rcases hrun : draft.make? s.system with ⟨made, after⟩
    rcases hrun' : draft.make? system with ⟨made', after'⟩
    rw [hrun, hrun'] at hmade
    rw [hrun] at hsystem
    rw [hrun'] at hsystem'
    obtain rfl : made' = made := hmade
    obtain rfl : after = _ := hsystem
    obtain rfl : after' = _ := hsystem'
    simp only [Scene.addTexture, hrun, hrun']
    cases made' <;> exact ⟨rfl, { h with resources := rfl, missing := h.missing }⟩

/-- Nor do the lines of what is no shader. -/
theorem lineChange_sameButCode {kind : ResourceKind} {α : Type}
    {f : Scene Recorder → α × Scene Recorder} (hf : LineChange kind α f) (hkind : kind ≠ .shader) :
    Parser.Respects Scene.SameButCode α f := by
  rintro s ⟨resources, system, drafts, files, requested⟩ h
  obtain rfl : resources = s.toResources.withoutCode := h.resources
  cases hf
  case material change => exact ⟨rfl, { h with resources := rfl }⟩
  case vertexFormat change => exact ⟨rfl, { h with resources := rfl }⟩
  case textureLayer change => exact ⟨rfl, { h with resources := rfl }⟩
  case hasTexture name => exact ⟨rfl, h⟩
  case texture change => exact ⟨rfl, { h with texture := congrArg change h.texture }⟩
  all_goals exact absurd rfl hkind

theorem Scene.SameButCode.compileWith {compiler : Shader → Recorder → Bool × Shader × Recorder}
    (hcompiler : ∀ shader r, (compiler shader r).2.1.inputLayout = shader.inputLayout ∧
      ∃ compiled, (compiler shader r).2.2 = { r with compiled })
    {s t : Scene Recorder} (h : s.SameButCode t) : (s.compileWith compiler).2.SameButCode t := by
  unfold Scene.compileWith
  split
  · exact h
  · rename_i name shader hcurrent
    obtain ⟨hlayout, compiled, hsystem⟩ := hcompiler shader s.system
    rcases hrun : compiler shader s.system with ⟨made, shader', system⟩
    rw [hrun] at hlayout hsystem
    obtain rfl : system = _ := hsystem
    have hshaders : (s.shaders.modifyCurrent fun _ => shader').map
        (fun shader => Shader.ofLayout shader.inputLayout) =
          s.shaders.map fun shader => .ofLayout shader.inputLayout := by
      refine Catalog.map_modifyCurrent fun _ _ heq => ?_
      rw [hcurrent] at heq
      cases heq
      exact congrArg Shader.ofLayout hlayout
    refine { h with resources := h.resources.trans ?_ }
    exact congrArg (fun c => { s.toResources with shaders := c }) hshaders.symm

/-- The lines of a shader change its code and what has been said of a stage. -/
theorem lineChange_shader_sameButCode {α : Type} {f : Scene Recorder → α × Scene Recorder}
    (hf : LineChange .shader α f) {s t : Scene Recorder} (h : s.SameButCode t) :
    (f s).2.SameButCode t := by
  cases hf
  case compileStage stage =>
    refine h.compileWith fun shader r => ?_
    simp only [RenderSystem.compileStage]
    split
    · exact ⟨rfl, _, rfl⟩
    · exact ⟨rfl, _, rfl⟩
  case compileShader =>
    refine h.compileWith fun shader r => ?_
    simp only [RenderSystem.compileShader]
    split
    · exact ⟨rfl, _, rfl⟩
    · exact ⟨rfl, _, rfl⟩
  case readFile path => exact { h with files := h.files }
  all_goals exact { h with texture := h.texture }

/-! ## Runs with and without a renderer -/

/-- States of two loads that have come to the same place, one with and one without a renderer. -/
structure Parser.State.SameButCode (s t : Parser.State (Scene Recorder)) : Prop where
  cursor : s.cursor = t.cursor
  bindings : s.bindings = t.bindings
  scene : s.scene.SameButCode t.scene

namespace Parser

variable {α β : Type}

theorem State.SameButCode.congruence :
    Congruence (Respects Scene.SameButCode) State.SameButCode where
  cursor h := h.cursor
  bindings h := by
    rw [h.bindings]
    exact .refl _
  move h _ := { h with cursor := rfl }
  note h _ := { h with scene := h.scene }
  setVariable h name value := { h with bindings := congrArg (·.set name value) h.bindings }
  build hf _ _ h :=
    ⟨(hf _ _ h.scene).1, h.cursor, h.bindings, (hf _ _ h.scene).2⟩

/-- Where `p` succeeds from `s`, it does the same from `t`, code apart. -/
def Mirrors (p : Parser (Scene Recorder) α) (s t : State (Scene Recorder)) : Prop :=
  ∀ ⦃a u⦄, p.run s = (.ok a, u) → ∃ v, p.run t = (.ok a, v) ∧ u.SameButCode v

namespace Mirrors

variable {p : Parser (Scene Recorder) α} {f : α → Parser (Scene Recorder) β}
  {s t : State (Scene Recorder)}

theorem of_composed (hp : Composed (Respects Scene.SameButCode) True p) (hst : s.SameButCode t) :
    Mirrors p s t := by
  intro a u hrun
  have hsame := hp.sameRun State.SameButCode.congruence hst
  rw [hrun] at hsame
  exact hsame.eq_right

theorem bind (hp : Mirrors p s t)
    (hf : ∀ ⦃a u v⦄, p.run s = (.ok a, u) → u.SameButCode v → Mirrors (f a) u v) :
    Mirrors (p >>= f) s t := by
  intro b w hrun
  obtain ⟨a, u, hpu, hfu⟩ := run_bind_eq_ok hrun
  obtain ⟨v, hpv, huv⟩ := hp hpu
  obtain ⟨x, hfv, hwx⟩ := hf hpu huv hfu
  refine ⟨x, ?_, hwx⟩
  rw [run_bind, hpv]
  exact hfv

end Mirrors

/-- A line mirrors what follows its name. -/
theorem line_mirrors {named : β → Token → Parser (Scene Recorder) β} {b : β} {x : Token}
    {s t : State (Scene Recorder)} (hst : s.SameButCode t)
    (hnamed : x.kind = .name → Mirrors (named b x) s t) : Mirrors (line named b x) s t := by
  unfold line
  split
  · exact .of_composed (.bind variableDefinition_composed fun _ => .pure b) hst
  · rename_i hname
    split
    · exact .of_composed (.bind discardedBlock_composed fun _ => .pure b) hst
    · exact hnamed hname
  · exact .of_composed (unexpected_composed x) hst

/-- Lines mirror each other if each does, where what `I` says of the first run holds. -/
theorem lines_mirrors {closing : TokenKind} {named : Unit → Token → Parser (Scene Recorder) Unit}
    {I : State (Scene Recorder) → Prop}
    (hnext : ∀ ⦃s u w⦄, I s → ¬ s.AtEnd → (lines closing named ()).run s = (.ok (), u) →
      (line named () (s.advance true).cursor.current).run (s.advance true) = (.ok (), w) → I w)
    (hnamed : ∀ ⦃s u t⦄, I s → ¬ s.AtEnd → (lines closing named ()).run s = (.ok (), u) →
      (s.advance true).cursor.current.kind = .name → (s.advance true).SameButCode t →
      Mirrors (named () (s.advance true).cursor.current) (s.advance true) t)
    {s t : State (Scene Recorder)} (hs : I s) (hst : s.SameButCode t) :
    Mirrors (lines closing named ()) s t := by
  intro _ u hrun
  have hcongr := State.SameButCode.congruence
  refine lines_induction
    (motive := fun _ s => (lines closing named ()).run s = (.ok (), u) → I s →
      ∀ t : State (Scene Recorder), s.SameButCode t →
        ∃ v, (lines closing named ()).run t = (.ok (), v) ∧ u.SameButCode v)
    (fun _ s hclose _ hu _ _ t hst => ?_)
    (fun _ s _ w hend hopen hline ih hrun hs t hst => ?_) hrun hrun hs t hst
  · rw [← (hcongr.step hst).token] at hclose
    rw [hu]
    exact ⟨_, lines_close hclose, hcongr.advance hst true⟩
  · have hstep := hcongr.step hst
    obtain ⟨v, hv, hwv⟩ :=
      line_mirrors hstep.states (fun hname => hnamed hs hend hrun hname hstep.states) hline
    obtain ⟨x, hx, hux⟩ := ih ((lines_line hend hopen hline).symm.trans hrun)
      (hnext hs hend hrun hline) v hwv
    rw [← hstep.token] at hopen hv
    exact ⟨x, (lines_line (fun hend' => hend (hstep.atEnd.2 hend')) hopen hv).trans hx, hux⟩

end Parser

/-! ## Dialect blocks -/

/-- What leads up to the lines of a shader: whole blocks, the keyword, and a header. -/
def ShaderFront (front : List Token) : Prop :=
  ∃ before keyword header name, front = before ++ keyword :: header ∧ Balanced before ∧
    keyword.isName "shader" ∧ Named .shader name (visible false header)

theorem ShaderFront.net_eq {front : List Token} (h : ShaderFront front) : net front = 1 := by
  obtain ⟨before, keyword, header, name, rfl, hbefore, hkeyword, hheader⟩ := h
  have hname : keyword.kind = .name := Token.kind_of_isName hkeyword
  have hnet := hheader.heading.net_eq
  rw [net_visible] at hnet
  rw [net_append, net_cons, hbefore.settled,
    Token.depthChange_of_not_isBrace (Token.isBrace_of_name hname), hnet]
  rfl

/-- The tokens `inside` stand between the braces of a dialect block: in the block of a shader,
after whole lines and the word for a dialect. -/
def DialectBlock (tokens inside : List Token) : Prop :=
  ∃ front lines word gap opening close after,
    tokens = front ++ lines ++ word :: gap ++ opening :: inside ++ close :: after ∧
    ShaderFront front ∧ Balanced lines ∧ word.kind = .name ∧
    (ShaderDialect.ofKeyword? word.text).isSome ∧ (∀ x ∈ gap, Cursor.skipsWhen false x) ∧
    opening.isSymbol .leftBrace ∧ Balanced inside ∧ close.isSymbol .rightBrace

/-- No `=` comes after the keyword of a shader. -/
def assignsBeforeShaders : List Token → Bool
  | [] => true
  | t :: ts =>
    (!t.isName "shader" || ts.all fun x => !x.isSymbol .equal) && assignsBeforeShaders ts

theorem not_equal_of_assignsBeforeShaders {before after : List Token} {keyword : Token}
    (h : assignsBeforeShaders (before ++ keyword :: after)) (hkeyword : keyword.isName "shader") :
    ∀ t ∈ after, t.isSymbol .equal = false := by
  induction before with
  | nil =>
    simp only [List.nil_append, assignsBeforeShaders, hkeyword, Bool.not_true, Bool.false_or,
      Bool.and_eq_true, List.all_eq_true] at h
    exact fun t ht => by simpa using h.1 t ht
  | cons t before ih => exact ih (Bool.and_eq_true_iff.1 h).2

/-- Without a `=` nothing is defined. -/
theorem DialectBlock.defines_nothing {tokens inside : List Token} (h : DialectBlock tokens inside)
    (hassigns : assignsBeforeShaders tokens) : ¬ DefinesVariable inside := by
  intro hdefines
  obtain ⟨t, ht, hequal⟩ := hdefines.exists_equal
  obtain ⟨_, lines, word, gap, opening, close, after, rfl,
    ⟨before, keyword, header, name, rfl, -, hkeyword, -⟩, -⟩ := h
  simp only [List.append_assoc, List.cons_append] at hassigns
  have hnot := not_equal_of_assignsBeforeShaders hassigns hkeyword t (by simp [ht])
  rw [hequal] at hnot
  cases hnot

namespace Parser

variable {tokens front : List Token} {s t u : State (Scene Recorder)}

theorem dialectBlock_active {word : Token} {dialect : ShaderDialect}
    (hword : ShaderDialect.ofKeyword? word.text = some dialect)
    (hbackend : (RenderSystem.backend s.scene.system).dialect? = some dialect) :
    (dialectBlock () word).run s = (block stageBlock () >>= fun _ => finishDialect).run s := by
  simp only [dialectBlock, hword]
  rw [run_bind]
  simp only [inspect, build]
  rw [if_neg (by simp [hbackend])]

/-- Before a line in the block of a shader that starts after the tokens `front`. -/
structure InShader (tokens front : List Token) (s : State (Scene Recorder)) : Prop where
  tokens : s.cursor.tokens = tokens
  lineBreaks : s.cursor.lineBreaksCount = false
  lines : ∃ ts, s.cursor.passed.reverse = front ++ ts ∧ Sinks ts

/-- If the block is read to its end, the lines before are whole. -/
theorem InShader.balanced (h : InShader tokens front s) (hfront : ShaderFront front)
    (hends : Ends tokens) (hbalanced : Balanced tokens)
    (hrun : (blockBody dialectBlock ()).run s = (.ok (), u)) :
    ∃ ts, s.cursor.passed.reverse = front ++ ts ∧ Balanced ts := by
  obtain ⟨ts, hpassed, hsinks⟩ := h.lines
  refine ⟨ts, hpassed, hsinks.resolve_right fun hneg => ?_⟩
  rw [← h.tokens] at hends hbalanced
  obtain ⟨us, hus, inside, close, hvisible, hinside, hclose⟩ :=
    blockBody_reads stacks_sinks (dialectBlock_reads (σ := Recorder)) () hends h.lineBreaks hrun
  have hsane := hbalanced.sane (s.cursor.passed.reverse ++ us) ⟨u.cursor.rest, by
    rw [Cursor.tokens, hus.rest, List.append_assoc]⟩
  -- what is left of the block sinks, too, and with its `}` would leave a brace too many
  have hrest := congrArg net hvisible
  have hlines := hinside.net_nonpos
  rw [net_visible, net_append, net_cons, net_nil,
    Token.depthChange_of_isSymbol_rightBrace hclose] at hrest
  rw [hpassed, net_append, net_append, hfront.net_eq] at hsane
  omega

/-- A dialect block that is read has passed a balanced stretch between braces, and bound nothing if
no definition is in it. -/
theorem activeDialect_passes (hends : Ends s.cursor.tokens)
    (hrun : (block stageBlock () >>= fun _ => finishDialect).run s = (.ok (), u)) :
    ∃ gap opening inside close, s.cursor.Passes (gap ++ [opening] ++ (inside ++ [close])) u.cursor ∧
      (∀ x ∈ gap, s.cursor.skips x) ∧ opening.isSymbol .leftBrace ∧ Balanced inside ∧
      close.isSymbol .rightBrace ∧ (¬ DefinesVariable inside → u.bindings = s.bindings) := by
  obtain ⟨_, w, hblock, hfinish⟩ := run_bind_eq_ok hrun
  obtain ⟨_, v, hopen, hbody⟩ := run_bind_eq_ok hblock
  obtain ⟨gap, opening, hgap, hskips, hsymbol⟩ := expect_passes hends hopen
  have hv := hgap.ends hends
  obtain ⟨inside, hinside, hbalanced, hclose⟩ :=
    blockBody_passes (fun _ => stageBlock_reads) hv hbody
  have hcursor : u.cursor = w.cursor := finishDialect_stays.cursor_eq hfinish
  refine ⟨gap, opening, inside, w.cursor.current, ?_, hskips, hsymbol, hbalanced, hclose,
    fun hnone => ?_⟩
  · rw [hcursor]
    exact hgap.trans hinside
  · have hfinished := bindings_finishDialect w
    have hopened := bindings_expect .leftBrace s
    rw [hfinish] at hfinished
    rw [hopen] at hopened
    calc u.bindings = w.bindings := hfinished
      _ = v.bindings := dialectBody_bindings hv hbody hinside hclose hnone
      _ = s.bindings := hopened

/-- **A dialect block is read and skipped to the same end**, and with the same variables if no
definition is in it. -/
theorem activeDialect_skips (hends : EndsOnce s.cursor.tokens) (hst : s.SameButCode t)
    (hrun : (block stageBlock () >>= fun _ => finishDialect).run s = (.ok (), u)) :
    ∃ gap opening inside close, s.cursor.Passes (gap ++ [opening] ++ (inside ++ [close])) u.cursor ∧
      (∀ x ∈ gap, s.cursor.skips x) ∧ opening.isSymbol .leftBrace ∧ Balanced inside ∧
      close.isSymbol .rightBrace ∧
      (¬ DefinesVariable inside → ∃ v, skipBlock.run t = (.ok (), v) ∧ u.SameButCode v) := by
  obtain ⟨gap, opening, inside, close, hpasses, hgap, hopen, hinside, hclose, hbindings⟩ :=
    activeDialect_passes hends.ends hrun
  refine ⟨gap, opening, inside, close, hpasses, hgap, hopen, hinside, hclose, fun hnone => ?_⟩
  have hscene : u.scene.SameButCode t.scene :=
    (Composed.bind (block_composed stageBlock_composed ())
      fun _ => finishDialect_composed).keeps_of_run (fun r => r.SameButCode t.scene)
      (fun _ _ _ hf h => lineChange_shader_sameButCode hf h) hrun hst.scene
  have hrest : s.cursor.rest = gap ++ opening :: (inside ++ close :: u.cursor.rest) := by
    simpa using hpasses.rest
  have hbreaks := (onward_of_run hrun).lineBreaks
  rw [hst.cursor] at hends hrest hpasses hgap hbreaks
  obtain ⟨v, hv, hpasses'⟩ := skipBlock_passes hends hrest
    (fun x hx => isSymbol_of_skipsWhen (hgap x hx) _) hopen hinside hclose
  have hcursor := hpasses.unique hpasses' (hbreaks.trans (onward_of_run hv).lineBreaks.symm)
  have hkept := bindings_skipBlock t
  rw [hv] at hkept
  refine ⟨v, hv, hcursor, (hbindings hnone).trans (hst.bindings.trans hkept.symm), ?_⟩
  rw [scene_eq_of_run skipBlock_composed hv]
  exact hscene

/-- A line of a shader leads to the next. -/
theorem InShader.line {w : State (Scene Recorder)} (h : InShader tokens front s)
    (hends : Ends tokens) (hend : ¬ s.AtEnd)
    (hline : (Parser.line dialectBlock () (s.advance true).cursor.current).run (s.advance true) =
      (.ok (), w)) : InShader tokens front w := by
  obtain ⟨ts, hpassed, hsinks⟩ := h.lines
  rw [← h.tokens] at hends
  obtain ⟨us, hus, hvisible, -⟩ := Reads.step_of_not_atEnd hends hend
  obtain ⟨vs, hvs, hread⟩ := line_reads stacks_sinks dialectBlock_reads () _ (hus.ends hends) rfl
    hline
  have hall := hus.trans hvs
  refine ⟨hall.tokens_eq.trans h.tokens, (onward_of_run hline).lineBreaks.trans h.lineBreaks,
    ts ++ (us ++ vs), ?_, hsinks.append (sinks_of_visible (m := s.cursor.lineBreaksCount) ?_)⟩
  · rw [hall.passed_reverse, hpassed, List.append_assoc]
  · rw [visible_append, hvisible]
    exact hread

section Shaders

variable (hends : EndsOnce tokens)
  (hnone : ∀ inside, DialectBlock tokens inside → ¬ DefinesVariable inside)
include hends hnone

/-- A dialect block leaves both runs together, whether the first reads or skips it. -/
theorem dialectBlock_mirrors (hfront : ShaderFront front) {ts : List Token} (hts : Balanced ts)
    {word : Token} (hname : word.kind = .name) (htokens : s.cursor.tokens = tokens)
    (hbreaks : s.cursor.lineBreaksCount = false)
    (hpassed : s.cursor.passed.reverse = front ++ ts ++ [word]) (hst : s.SameButCode t) :
    Mirrors (dialectBlock () word) s t := by
  intro _ u hrun
  cases hword : ShaderDialect.ofKeyword? word.text with
  | none =>
    rw [dialectBlock, hword] at hrun
    cases hrun
  | some dialect =>
    have hforeign : (RenderSystem.backend t.scene.system).dialect? ≠ some dialect := by
      rw [show RenderSystem.backend t.scene.system = .none from hst.scene.backend]
      exact (Option.some_ne_none dialect).symm
    obtain ⟨notices, hskip⟩ := dialectBlock_foreign hword hforeign
    rw [hskip]
    by_cases hbackend : (RenderSystem.backend s.scene.system).dialect? = some dialect
    · rw [dialectBlock_active hword hbackend] at hrun
      have hst' : s.SameButCode { t with journal := t.journal ++ notices } :=
        ⟨hst.cursor, hst.bindings, hst.scene⟩
      rw [← htokens] at hends
      obtain ⟨gap, opening, inside, close, hpasses, hgap, hopen, hinside, hclose, hskips⟩ :=
        activeDialect_skips hends hst' hrun
      refine hskips (hnone inside ⟨front, ts, word, gap, opening, close, u.cursor.rest, ?_, hfront,
        hts, hname, by rw [hword]; rfl, fun x hx => ?_, hopen, hinside, hclose⟩)
      · rw [← htokens, Cursor.tokens, hpassed, hpasses.rest]
        simp
      · rw [← hbreaks]
        exact hgap x hx
    · obtain ⟨notices', hskip'⟩ := dialectBlock_foreign hword hbackend
      have hst' : State.SameButCode { s with journal := s.journal ++ notices' }
        { t with journal := t.journal ++ notices } := ⟨hst.cursor, hst.bindings, hst.scene⟩
      rw [hskip'] at hrun
      exact Mirrors.of_composed skipBlock_composed hst' hrun

/-- The lines of a shader. -/
theorem shaderBody_mirrors (hbalanced : Balanced tokens) (hfront : ShaderFront front)
    (hs : InShader tokens front s) (hst : s.SameButCode t) :
    Mirrors (blockBody dialectBlock ()) s t := by
  refine lines_mirrors (I := InShader tokens front)
    (fun s _ w hs hend _ hline => hs.line hends.ends hend hline)
    (fun s u t hs hend hrun hname hst => ?_) hs hst
  obtain ⟨ts, hpassed, hts⟩ := hs.balanced hfront hends.ends hbalanced hrun
  have hends' : Ends s.cursor.tokens := by
    rw [hs.tokens]
    exact hends.ends
  obtain ⟨gap, hpasses, hgap⟩ := advance_passes hends' hend
  have hplain : Plain gap := fun x hx => Token.isBrace_of_skipsWhen (hgap x hx)
  refine dialectBlock_mirrors hends hnone hfront (hts.append hplain.balanced) hname
    (hpasses.tokens_eq.trans hs.tokens) hs.lineBreaks ?_ hst
  rw [hpasses.passed_reverse, hpassed]
  simp

/-- A shader that is made in both runs. -/
theorem shader_mirrors (hbalanced : Balanced tokens) {before : List Token} {keyword : Token}
    (hbefore : Balanced before) (hkeyword : keyword.isName "shader")
    (htokens : s.cursor.tokens = tokens) (hbreaks : s.cursor.lineBreaksCount = false)
    (hpassed : s.cursor.passed.reverse = before ++ [keyword])
    (hsupported : RenderSystem.supportsShaders s.scene.system) (hst : s.SameButCode t) :
    Mirrors shader s t := by
  have hsupported' : RenderSystem.supportsShaders t.scene.system :=
    hst.scene.supportsShaders.trans hsupported
  have hheader :
      Composed (Respects Scene.SameButCode) True (supportedShaderHeader (σ := Recorder)) :=
    .bind declaredName_composed fun n =>
      .bind ((shaderHeader_composed n).mono fun _ _ => declarationChange_sameButCode) fun _ =>
      .pure _
  rw [Mirrors, shader_run hsupported, shader_run hsupported']
  refine Mirrors.bind (.of_composed hheader hst) fun name u v hrun huv => ?_
  have hends' : Ends s.cursor.tokens := by
    rw [htokens]
    exact hends.ends
  obtain ⟨header, hpasses, hnamed⟩ := supportedShaderHeader_reads hends' hbreaks hrun
  have hfront : ShaderFront (before ++ keyword :: header) :=
    ⟨before, keyword, header, name, rfl, hbefore, hkeyword, hnamed⟩
  refine shaderBody_mirrors hends hnone hbalanced hfront ⟨?_, ?_, [], ?_, ?_⟩ huv
  · exact hpasses.tokens_eq.trans htokens
  · exact (onward_of_run hrun).lineBreaks.trans hbreaks
  · rw [hpasses.passed_reverse, hpassed]
    simp
  · exact Balanced.nil.sinks

end Shaders

/-! ## Scripts -/

/-- A header and lines that do not touch a shader. -/
theorem headed_sameButCode {kind : ResourceKind} (hkind : kind ≠ .shader)
    {p : Parser (Scene Recorder) α} {f : α → Parser (Scene Recorder) β}
    (hp : Composed DeclarationChange True p) (hf : ∀ a, Composed (LineChange kind) True (f a)) :
    Composed (Respects Scene.SameButCode) True (p >>= f) :=
  .bind (hp.mono fun _ _ => declarationChange_sameButCode) fun a =>
    (hf a).mono fun _ _ h => lineChange_sameButCode h hkind

theorem texture_sameButCode :
    Composed (Respects Scene.SameButCode) True (texture (σ := Recorder)) :=
  .bind (textureHeader_composed.mono fun _ _ => declarationChange_sameButCode) fun name =>
    .bind ((lines_composed textureLine_composed _ ()).mono fun _ _ h =>
      lineChange_sameButCode h (by decide)) fun _ =>
    (finishTexture_composed name).mono fun _ _ => declarationChange_sameButCode

theorem script_mirrors {r : Recorder} (hr : RenderSystem.HasShaders r)
    (hnone : ∀ inside, DialectBlock tokens inside → ¬ DefinesVariable inside) (hs : AtLine r s)
    (htokens : s.cursor.tokens = tokens) (hst : s.SameButCode t) : Mirrors script s t := by
  refine lines_mirrors (I := fun s => AtLine r s ∧ s.cursor.tokens = tokens)
    (fun s _ w hs hend _ hline => ?_) (fun s u t hs hend _ hname hst => ?_) ⟨hs, htokens⟩ hst
  · have hadvance := s.advance_onward true
    exact ⟨(hs.1.line hr hend hline).1,
      (hadvance.trans (onward_of_run hline)).leads.tokens_eq.trans hs.2⟩
  obtain ⟨hs, htokens⟩ := hs
  unfold declaration
  split
  · have hkind : ResourceKind.material ≠ .shader := by decide
    exact .of_composed (headed_sameButCode hkind materialHeader_composed fun _ =>
      lines_composed materialLine_composed _ ()) hst
  · rename_i hword
    obtain ⟨gap, hpasses, hgap⟩ := advance_passes hs.ends.ends hend
    have hpassed : (s.advance true).cursor.passed.reverse =
        s.cursor.passed.reverse ++ gap ++ [(s.advance true).cursor.current] := by
      rw [hpasses.passed_reverse, List.append_assoc]
    have hplain : Plain gap := fun x hx => Token.isBrace_of_skipsWhen (hgap x hx)
    have hbefore : Balanced (s.cursor.passed.reverse ++ gap) := by
      have hpassed : Balanced (s.cursor.passed.reverse ++ s.cursor.rest) := hs.balanced
      exact (hpassed.of_append_left hs.depth).append hplain.balanced
    have htokens' : EndsOnce tokens ∧ Balanced tokens := htokens ▸ ⟨hs.ends, hs.balanced⟩
    refine shader_mirrors htokens'.1 hnone htokens'.2 hbefore ?_ (hpasses.tokens_eq.trans htokens)
      hs.lineBreaks hpassed (hr _ hs.system) hst
    simp [Token.isName, hname, hword]
  · have hkind : ResourceKind.vertexFormat ≠ .shader := by decide
    exact .of_composed (headed_sameButCode hkind vertexFormatHeader_composed fun _ =>
      lines_composed attributeBlock_composed _ ()) hst
  · exact .of_composed texture_sameButCode hst
  · have hkind : ResourceKind.textureLayer ≠ .shader := by decide
    exact .of_composed (headed_sameButCode hkind textureLayerHeader_composed fun _ =>
      lines_composed layerLine_composed _ ()) hst
  · exact .of_composed (unexpectedName_composed _) hst

end Parser

/-! ## Loads -/

theorem Loader.exists_tokens {σ : Type} [RenderSystem σ] {l : Loader σ} {files : Files}
    {source : String} (h : (l.readSource files source).1 = .ok ()) :
    ∃ tokens, Source.tokens source = .ok tokens := by
  cases htokens : Source.tokens source with
  | error e => simp [readSource, readTextOn, htokens] at h
  | ok tokens => exact ⟨tokens, rfl⟩

/-- The same loader over the same render system with another backend. -/
def Loader.withBackend (l : Loader Recorder) (backend : Backend) : Loader Recorder :=
  { l with system := { l.system with backend } }

/-- **The backend only decides shader contents.** Over a render system with shaders, where a text
with no variable definition inside a dialect block loads with one backend, it loads without a
renderer, too. Both loads end with the same variables and the same materials, vertex formats,
textures and texture layers; the shaders have the same names in the same order and the same input
layouts, and without a renderer none has a stage and none is compiled. -/
theorem readSource_backend {l : Loader Recorder} (hshaders : l.system.supportsShaders)
    {files : Files} {source : String} {tokens : List Token}
    (htokens : Source.tokens source = .ok tokens)
    (hnone : ∀ inside, DialectBlock tokens inside → ¬ DefinesVariable inside)
    (h : (l.readSource files source).1 = .ok ()) :
    let loaded := (l.readSource files source).2
    let bare := (l.withBackend .none).readSource files source
    bare.1 = .ok () ∧ bare.2.bindings = loaded.bindings ∧
      bare.2.resources.materials = loaded.resources.materials ∧
      bare.2.resources.vertexFormats = loaded.resources.vertexFormats ∧
      bare.2.resources.textures = loaded.resources.textures ∧
      bare.2.resources.textureLayers = loaded.resources.textureLayers ∧
      (bare.2.resources.shaders.entries.map fun (name, shader) => (name, shader.inputLayout)) =
        (loaded.resources.shaders.entries.map fun (name, shader) => (name, shader.inputLayout)) ∧
      ∀ entry ∈ bare.2.resources.shaders.entries,
        entry.2.stages = [] ∧ entry.2.compiled = false := by
  intro loaded bare
  have hends := Source.endsOnce_tokensFrom htokens
  simp only [Loader.readSource, Loader.readTextOn, htokens] at h
  obtain ⟨hsomething, hcheck, s, hrun, hafter⟩ := Loader.readOn_eq_ok (Prod.ext h rfl)
  obtain ⟨hstart, -⟩ := l.begin.atLine_start files hends hcheck
  have hrest : (l.begin.start files tokens).cursor.tokens = tokens := Cursor.rest_ofTokens hends
  have hsame : Parser.State.SameButCode (l.begin.start files tokens)
      ((l.withBackend .none).begin.start files tokens) :=
    ⟨rfl, rfl, rfl, rfl, rfl, rfl, rfl, rfl⟩
  obtain ⟨t, hrun', hst⟩ :=
    Parser.script_mirrors (Recorder.hasShaders hshaders) hnone hstart hrest hsame hrun
  have hbare : bare = (.ok (),
      ((l.withBackend .none).begin.absorb t).note (Loader.summary t.scene.toResources)) := by
    simp only [bare, Loader.readSource, Loader.readTextOn, htokens, Loader.readOn, hsomething,
      hcheck, Loader.readFrom, hrun']
    rfl
  have hloaded : loaded = (l.begin.absorb s).note (Loader.summary s.scene.toResources) := by
    simp only [loaded, Loader.readSource, Loader.readTextOn, htokens]
    exact hafter
  have hresources : bare.2.resources = loaded.resources.withoutCode := by
    rw [hbare, hloaded]
    exact hst.scene.resources
  have hbindings : bare.2.bindings = loaded.bindings := by
    rw [hbare, hloaded]
    exact hst.bindings.symm
  refine ⟨by rw [hbare], hbindings, ?_⟩
  rw [hresources]
  exact ⟨rfl, rfl, rfl, rfl, loaded.resources.layouts_withoutCode,
    fun _ => loaded.resources.shaders_withoutCode⟩

/-- A shader with code for two dialects, one of which reads a variable, and a material. -/
def twoDialects : String :=
  "@code = \"void main()\"\n" ++
  "shader \"s\" \x7b hlsl5 \x7b if \x7b\x7d \x7d\n" ++
  "glsl \x7b vertex \x7b version std330 source @code\n \x7d \x7d \x7d\n" ++
  "material \"m\" \x7b \x7d"

theorem readSource_backend_two_dialects :
    let files : Files := fun _ => .error .notFound
    let l := Loader.new Recorder.default "/"
    let loaded := (l.readSource files twoDialects).2
    let bare := (l.withBackend .none).readSource files twoDialects
    (loaded.resources.shaders.entries.map fun (name, shader) =>
        (name, shader.stages.length, shader.compiled)) = [("s", 1, true)] ∧
      bare.1 = .ok () ∧ bare.2.bindings = loaded.bindings ∧
      bare.2.resources.materials = loaded.resources.materials ∧
      (bare.2.resources.shaders.entries.map fun (name, shader) => (name, shader.inputLayout)) =
        (loaded.resources.shaders.entries.map fun (name, shader) => (name, shader.inputLayout)) ∧
      ∀ entry ∈ bare.2.resources.shaders.entries,
        entry.2.stages = [] ∧ entry.2.compiled = false := by
  have hload : ((Loader.new Recorder.default "/").readSource
      (fun _ => .error .notFound) twoDialects).1 = .ok () := by decide +kernel
  have hstages : ((Loader.new Recorder.default "/").readSource
      (fun _ => .error .notFound) twoDialects).2.resources.shaders.entries.map
        (fun (name, shader) => (name, shader.stages.length, shader.compiled)) =
      [("s", 1, true)] := by decide +kernel
  have hassigns : (Source.tokens twoDialects).toOption.all assignsBeforeShaders := by
    decide +kernel
  intro files l loaded bare
  obtain ⟨tokens, htokens⟩ := Loader.exists_tokens hload
  have hnone : ∀ inside, DialectBlock tokens inside → ¬ DefinesVariable inside := by
    rw [htokens] at hassigns
    exact fun inside hblock => hblock.defines_nothing (by simpa [Except.toOption] using hassigns)
  obtain ⟨hanswer, hbindings, hmaterials, -, -, -, hshaders, hbare⟩ :=
    readSource_backend (l := l) rfl htokens hnone hload
  exact ⟨hstages, hanswer, hbindings, hmaterials, hshaders, hbare⟩

end MaterialScript
