/-
A load that succeeds has made what its script declares, in order.

`declaredNames` reads the names off the tokens alone: a string that follows
the keyword of a kind outside all braces. `names_of_readSource`: after a
successful load the catalog of each kind holds just these names. Attribute
keys, variables, discarded blocks and skipped dialects hold strings and
keywords too; `line_names` says that no line outside a declaration shows a
keyword before a string, and that a declaration shows one.
-/
import MaterialScript.Loader
import MaterialScript.Proofs.Names
import MaterialScript.RenderSystem.Recorder

namespace MaterialScript

open Braces

/-- The strings that directly follow a name spelled `word` outside all braces, in tokens that start
at a depth. -/
def namesAfter (word : String) : Int → List Token → List String
  | _, [] => []
  | _, [_] => []
  | depth, t :: u :: ts =>
    (if depth = 0 ∧ t.isName word ∧ u.kind = .string then [u.text] else []) ++
      namesAfter word (depth + t.depthChange) (u :: ts)

/-- The names a script declares for a kind of resource. -/
def declaredNames (kind : ResourceKind) (tokens : List Token) : List String :=
  namesAfter kind.keyword 0 (tokens.filter fun t => !t.kind.isWhitespace)

section NamesAfter

variable {word : String} {depth : Int} {t : Token} {ts after : List Token}

theorem namesAfter_cons_of_depth (h : depth ≠ 0) :
    namesAfter word depth (t :: ts) = namesAfter word (depth + t.depthChange) ts := by
  cases ts with
  | nil => rfl
  | cons u ts => simp [namesAfter, h]

theorem namesAfter_cons_of_kind (h : t.kind ≠ .name) :
    namesAfter word depth (t :: ts) = namesAfter word (depth + t.depthChange) ts := by
  cases ts with
  | nil => rfl
  | cons u ts => simp [namesAfter, Token.isName, h]

theorem namesAfter_cons_of_head (h : ∀ u ∈ ts.head?, u.kind ≠ .string) :
    namesAfter word depth (t :: ts) = namesAfter word (depth + t.depthChange) ts := by
  cases ts with
  | nil => rfl
  | cons u ts =>
    have hu : u.kind ≠ .string := by simpa using h
    simp [namesAfter, hu]

/-- Without a name nothing is declared. -/
theorem namesAfter_of_no_names (h : ∀ t ∈ ts, t.kind ≠ .name) : namesAfter word depth ts = [] := by
  induction ts generalizing depth with
  | nil => rfl
  | cons t ts ih =>
    rw [namesAfter_cons_of_kind (h t (by simp)), ih fun u hu => h u (List.mem_cons_of_mem t hu)]

/-- Inside braces nothing is declared. -/
theorem namesAfter_append_of_depth (h : ∀ p, p <+: ts → 0 < depth + net p) :
    namesAfter word depth (ts ++ after) = namesAfter word (depth + net ts) after := by
  induction ts generalizing depth with
  | nil => simp
  | cons t ts ih =>
    have hdepth : 0 < depth := by simpa using h [] (List.nil_prefix)
    rw [List.cons_append, namesAfter_cons_of_depth (by omega), ih, net_cons, Int.add_assoc]
    intro p hp
    have := h (t :: p) ((List.prefix_cons_inj t).2 hp)
    rw [net_cons] at this
    omega

theorem namesAfter_block (h : Block ts) :
    namesAfter word 0 (ts ++ after) = namesAfter word 0 after := by
  obtain ⟨opening, inside, close, rfl, hopen, hinside, hclose⟩ := h
  have hopening : opening.kind = .symbol .leftBrace := by simpa [Token.isSymbol] using hopen
  have hclosing : close.kind = .symbol .rightBrace := by simpa [Token.isSymbol] using hclose
  have hdeep : ∀ p, p <+: inside → 0 < (1 : Int) + net p := fun p hp => by
    have := hinside.sane p hp
    omega
  calc namesAfter word 0 (opening :: inside ++ [close] ++ after)
      = namesAfter word 1 (inside ++ close :: after) := by
        simp [namesAfter_cons_of_kind, hopening, Token.depthChange_of_isSymbol_leftBrace hopen]
    _ = namesAfter word 1 (close :: after) := by
        rw [namesAfter_append_of_depth hdeep, hinside.settled, Int.add_zero]
    _ = namesAfter word 0 after := by
        rw [namesAfter_cons_of_kind (by simp [hclosing]),
          Token.depthChange_of_isSymbol_rightBrace hclose]
        rfl

/-- Words without a string after a name declare nothing. -/
theorem namesAfter_quiet (h : Parser.Quiet ts) (hafter : ∀ u ∈ after.head?, u.kind ≠ .string) :
    namesAfter word 0 (ts ++ after) = namesAfter word 0 after := by
  induction ts with
  | nil => rfl
  | cons t ts ih =>
    have hchange := Token.depthChange_of_not_isBrace (h.within t (by simp)).2
    have hts : Parser.Quiet ts :=
      ⟨(List.isChain_cons.1 h.chain).2, fun u hu => h.within u (List.mem_cons_of_mem t hu)⟩
    rw [List.cons_append]
    by_cases hname : t.kind = .name
    · rw [namesAfter_cons_of_head, hchange, Int.add_zero, ih hts]
      intro u hu
      cases ts with
      | nil => exact hafter u hu
      | cons v ts => exact (List.isChain_cons.1 h.chain).1 u hu hname
    · rw [namesAfter_cons_of_kind hname, hchange, Int.add_zero, ih hts]

/-- A variable definition, which may end with the end of the file, declares nothing. -/
theorem namesAfter_definition {words ending : List Token} (hat : t.kind = .symbol .atSign)
    (hwords : Parser.Quiet words)
    (hending : ending = [] ∨ ∃ e, e.kind = .endOfFile ∧ ending = [e])
    (hafter : ∀ u ∈ after.head?, u.kind ≠ .string) :
    namesAfter word 0 (t :: (words ++ ending) ++ after) = namesAfter word 0 after := by
  have hquiet : Parser.Quiet (t :: words) := hwords.cons (by simp [Token.endsLine, hat])
    (by simp [Token.isBrace, Token.isSymbol, hat]) (by simp [hat])
  rw [← List.cons_append, List.append_assoc]
  rcases hending with rfl | ⟨e, he, rfl⟩
  · exact namesAfter_quiet hquiet hafter
  · have hchange : e.depthChange = 0 :=
      Token.depthChange_of_not_isBrace (by simp [Token.isBrace, Token.isSymbol, he])
    rw [namesAfter_quiet hquiet (by simp [he]), List.singleton_append,
      namesAfter_cons_of_kind (by simp [he]), hchange, Int.add_zero]

/-- A name before a block declares nothing. -/
theorem namesAfter_discarded (hname : t.kind = .name) (h : Block ts) :
    namesAfter word 0 (t :: ts ++ after) = namesAfter word 0 after := by
  have hhead : ∀ x ∈ (ts ++ after).head?, x.kind ≠ .string := by
    obtain ⟨opening, inside, close, rfl, hopen, -, -⟩ := h
    have hkind : opening.kind = .symbol .leftBrace := by simpa [Token.isSymbol] using hopen
    simp [hkind]
  rw [List.cons_append, namesAfter_cons_of_head hhead,
    Token.depthChange_of_not_isBrace (Token.isBrace_of_name hname), Int.add_zero,
    namesAfter_block h]

/-- A keyword, a name, the rest of a header and a block. -/
theorem namesAfter_declaration {kind : ResourceKind} {name : String} (hkind : t.kind = .name)
    (h : Parser.Declaration kind name ts) (hnet : 0 ≤ net ts) :
    namesAfter word 0 (t :: ts ++ after) =
      (if t.text = word then [name] else []) ++ namesAfter word 0 after := by
  obtain ⟨_, _, rfl, ⟨n, words, opening, rfl, hn, rfl, hwords, hopen⟩,
    ⟨inside, close, rfl, hinside, hclose⟩⟩ := h
  have hchange : t.depthChange = 0 :=
    Token.depthChange_of_not_isBrace (Token.isBrace_of_name hkind)
  have hchange' : n.depthChange = 0 :=
    Token.depthChange_of_not_isBrace (Token.isBrace_of_string hn)
  have hopening : opening.kind = .symbol .leftBrace := by simpa [Token.isSymbol] using hopen
  have hplain : net words = 0 := hwords.plain.net_eq
  have hbalanced : Balanced inside := by
    refine hinside.resolve_right ?_
    simp [hchange', hplain, Token.depthChange_of_isSymbol_leftBrace hopen,
      Token.depthChange_of_isSymbol_rightBrace hclose] at hnet
    omega
  have hblock : Block (opening :: inside ++ [close]) :=
    ⟨opening, inside, close, rfl, hopen, hbalanced, hclose⟩
  -- the word between the name and the `{`, if there is one
  have hrest : namesAfter word 0 (words ++ (opening :: inside ++ [close] ++ after)) =
      namesAfter word 0 after := by
    rcases hwords.cases with rfl | ⟨u, hu, rfl⟩
    · exact namesAfter_block hblock
    · rw [List.singleton_append, namesAfter_cons_of_head (by simp [hopening]),
        Token.depthChange_of_not_isBrace (Token.isBrace_of_name hu), Int.add_zero]
      exact namesAfter_block hblock
  have hlist : t :: (n :: words ++ [opening] ++ (inside ++ [close])) ++ after =
      t :: n :: (words ++ (opening :: inside ++ [close] ++ after)) := by simp
  rw [hlist, namesAfter, hchange, Int.add_zero, namesAfter_cons_of_kind (by simp [hn]), hchange',
    Int.add_zero, hrest]
  simp [Token.isName, hkind, hn]

end NamesAfter

/-! ## Lines of a script -/

namespace Parser

theorem keyword_injective {k k' : ResourceKind} (h : k.keyword = k'.keyword) : k = k' := by
  cases k <;> cases k' <;> first | rfl | exact absurd h (by decide)

/-- Words of a line are seen whether line breaks count or not. -/
theorem visible_false_of_words {ts words ending : List Token}
    (h : visible true ts = words ++ ending) (hwords : ∀ t ∈ words, t.endsLine = false) :
    visible false words = words := by
  refine List.filter_eq_self.2 fun t ht => ?_
  have hseen : t ∈ visible true ts := by
    rw [h]
    exact List.mem_append_left ending ht
  have hblank : Cursor.skipsWhen true t = false := by simpa using (List.mem_filter.1 hseen).2
  have hline := hwords t ht
  cases t with
  | mk kind text position => cases kind <;> simp_all [Cursor.skipsWhen, Token.endsLine]

/-- What a variable definition passes, line breaks left out. -/
theorem variableDefinition_reads {ρ : Type} :
    Reads false (variableDefinition : Parser ρ Unit) fun _ vs =>
      ∃ words ending, vs = words ++ ending ∧ Quiet words ∧
        (ending = [] ∨ ∃ e, e.kind = .endOfFile ∧ ending = [e]) := by
  refine .withLineBreaks definitionLine_reads fun _ ts h => ?_
  obtain ⟨words, ending, hvisible, hwords, -, hending⟩ := h
  refine ⟨words, visible false ending, ?_, hwords, ?_⟩
  · rw [← visible_false_visible_true, hvisible, visible_append,
      visible_false_of_words hvisible fun t ht => (hwords.within t ht).1]
  · rcases hending with rfl | ⟨e, he, rfl⟩
    · exact .inl rfl
    · simp only [Token.endsLine, Bool.or_eq_true, beq_iff_eq] at he
      rcases he with hkind | hkind
      · exact .inl (by simp [visible, Cursor.skipsWhen, hkind])
      · exact .inr ⟨e, hkind, visible_singleton (by simp [Cursor.skipsWhen, hkind])⟩

variable {σ : Type} [RenderSystem σ]

/-- A line of a script declares what its tokens show, if they leave no brace open. -/
theorem line_names {b : Unit} {t : Token} {s u : State (Scene σ)} (hends : Ends s.cursor.tokens)
    (hbreaks : s.cursor.lineBreaksCount = false)
    (hsupported : RenderSystem.supportsShaders s.scene.system)
    (h : (line declaration b t).run s = (.ok (), u)) :
    ∃ ts, s.cursor.Passes ts u.cursor ∧ ∃ new : ResourceKind → List String,
      (∀ k, u.scene.names k = s.scene.names k ++ new k) ∧
      t.kind ≠ .string ∧
      (0 ≤ net (t :: ts) → ∀ after, (∀ x ∈ after.head?, x.kind ≠ .string) → ∀ k,
        namesAfter (ResourceKind.keyword k) 0 (t :: visible false ts ++ after) =
          new k ++ namesAfter k.keyword 0 after) := by
  unfold line at h
  split at h
  · rename_i hat
    obtain ⟨_, v, hdefinition, h⟩ := run_bind_eq_ok h
    cases h
    obtain ⟨ts, hts, words, ending, hvisible, hwords, hending⟩ :=
      variableDefinition_reads hends hbreaks hdefinition
    refine ⟨ts, hts, fun _ => [], fun k => ?_, by simp [hat], fun _ after hafter k => ?_⟩
    · rw [List.append_nil, scene_eq_of_run variableDefinition_composed hdefinition]
    · rw [hvisible, List.nil_append]
      exact namesAfter_definition hat hwords hending hafter
  · rename_i hname
    split at h
    · obtain ⟨_, v, hdiscard, h⟩ := run_bind_eq_ok h
      cases h
      obtain ⟨ts, hts, hblock⟩ := discardedBlock_reads hends hbreaks hdiscard
      refine ⟨ts, hts, fun _ => [], fun k => ?_, by simp [hname], fun _ after _ k => ?_⟩
      · rw [List.append_nil, scene_eq_of_run discardedBlock_composed hdiscard]
      · rw [List.nil_append]
        exact namesAfter_discarded hname hblock
    · obtain ⟨kind, name, hkeyword, hadds, ts, hts, hdeclaration⟩ :=
        declaration_names hends hsupported h
      refine ⟨ts, hts, fun k => if k = kind then [name] else [], hadds, by simp [hname],
        fun hnet after _ k => ?_⟩
      rw [hbreaks] at hdeclaration
      have hsame : (if kind.keyword = k.keyword then [name] else []) =
          if k = kind then [name] else [] := by
        by_cases hk : k = kind
        · simp [hk]
        · rw [if_neg hk, if_neg fun heq => hk (keyword_injective heq.symm)]
      have hchange := Token.depthChange_of_not_isBrace (Token.isBrace_of_name hname)
      rw [net_cons, hchange, Int.zero_add] at hnet
      rw [namesAfter_declaration hname hdeclaration (by rw [net_visible]; exact hnet), hkeyword,
        hsame]
  · cases h

end Parser

/-! ## Render systems with shaders -/

namespace RenderSystem

/-- What a render system becomes by what it is asked for. -/
inductive LeadsTo {σ : Type} [RenderSystem σ] (r : σ) : σ → Prop
  | refl : LeadsTo r r
  | makeMaterial {r' : σ} : LeadsTo r r' → LeadsTo r (makeMaterial r').2
  | makeVertexFormat {r' : σ} : LeadsTo r r' → LeadsTo r (makeVertexFormat r').2
  | makeTextureLayer {r' : σ} (kind : LayerKind) :
      LeadsTo r r' → LeadsTo r (makeTextureLayer kind r').2
  | makeShader {r' : σ} (layout : Option InputLayout) :
      LeadsTo r r' → LeadsTo r (makeShader layout r').2
  | compileStage {r' : σ} (shader : Shader) (stage : ShaderStage) :
      LeadsTo r r' → LeadsTo r (compileStage shader stage r').2.2
  | compileShader {r' : σ} (shader : Shader) :
      LeadsTo r r' → LeadsTo r (compileShader shader r').2.2
  | loadTexture {r' : σ} (path : String) : LeadsTo r r' → LeadsTo r (loadTexture path r').2
  | createTexture {r' : σ} (settings : TextureSettings) :
      LeadsTo r r' → LeadsTo r (createTexture settings r').2

/-- The render system supports shaders, whatever it is asked for. -/
def HasShaders {σ : Type} [RenderSystem σ] (r : σ) : Prop :=
  ∀ r', LeadsTo r r' → supportsShaders r'

end RenderSystem

theorem Recorder.hasShaders {r : Recorder} (h : r.supportsShaders) : RenderSystem.HasShaders r := by
  intro r' hr'
  change r'.supportsShaders
  induction hr' with
  | compileStage shader stage _ ih =>
    simp only [RenderSystem.compileStage]
    split
    · exact ih
    · exact ih
  | compileShader shader _ ih =>
    simp only [RenderSystem.compileShader]
    split
    · exact ih
    · exact ih
  | refl => exact h
  | _ => assumption

section Systems

variable {σ : Type} [RenderSystem σ] {r : σ}

theorem lineChange_leadsTo {kind : ResourceKind} {α : Type} {f : Scene σ → α × Scene σ}
    (hf : LineChange kind α f) {s : Scene σ} (h : RenderSystem.LeadsTo r s.system) :
    RenderSystem.LeadsTo r (f s).2.system := by
  cases hf
  case compileStage stage =>
    simp only [Scene.compileStage, Scene.compileWith]
    split
    · exact h
    · exact h.compileStage _ stage
  case compileShader =>
    simp only [Scene.compileShader, Scene.compileWith]
    split
    · exact h
    · exact h.compileShader _
  all_goals exact h

theorem declarationChange_leadsTo {α : Type} {f : Scene σ → α × Scene σ}
    (hf : DeclarationChange α f) {s : Scene σ} (h : RenderSystem.LeadsTo r s.system) :
    RenderSystem.LeadsTo r (f s).2.system := by
  cases hf
  case addMaterial => exact h.makeMaterial
  case addShader name layout => exact h.makeShader layout
  case addVertexFormat => exact h.makeVertexFormat
  case addTextureLayer name kind => exact h.makeTextureLayer kind
  case addTexture name draft =>
    have hmade : RenderSystem.LeadsTo r (draft.make? s.system).2 := by
      unfold TextureDraft.make?
      split
      · exact h.createTexture _
      · exact h.loadTexture _
    unfold Scene.addTexture
    rcases hrun : draft.make? s.system with ⟨t?, after⟩
    rw [hrun] at hmade
    cases t? with
    | none => exact hmade
    | some t => exact hmade
  all_goals exact h

theorem sceneChange_leadsTo {α : Type} {f : Scene σ → α × Scene σ} (hf : SceneChange α f)
    {s : Scene σ} (h : RenderSystem.LeadsTo r s.system) :
    RenderSystem.LeadsTo r (f s).2.system := by
  cases hf with
  | line hline => exact lineChange_leadsTo hline h
  | declaration hdeclaration => exact declarationChange_leadsTo hdeclaration h

/-! ## Whole scripts -/

namespace Parser

/-- What holds of a state before a line of a script: no brace is open, and the render system will
support shaders. -/
structure AtLine (r : σ) (s : State (Scene σ)) : Prop where
  ends : EndsOnce s.cursor.tokens
  lineBreaks : s.cursor.lineBreaksCount = false
  balanced : Balanced s.cursor.tokens
  depth : net s.cursor.passed.reverse = 0
  system : RenderSystem.LeadsTo r s.scene.system

/-- A line that succeeds leads from one such state to another. -/
theorem AtLine.line (hr : RenderSystem.HasShaders r) {s u : State (Scene σ)} (h : AtLine r s)
    (hend : ¬ s.AtEnd)
    (hrun : (Parser.line declaration () (s.advance true).cursor.current).run (s.advance true) =
      (.ok (), u)) :
    AtLine r u ∧ ∃ vs, visible false s.cursor.rest = vs ++ visible false u.cursor.rest ∧
      (∀ x ∈ vs.head?, x.kind ≠ .string) ∧ ∃ new : ResourceKind → List String,
      (∀ k, u.scene.names k = s.scene.names k ++ new k) ∧
      ∀ after, (∀ x ∈ after.head?, x.kind ≠ .string) → ∀ k,
        namesAfter (ResourceKind.keyword k) 0 (vs ++ after) =
          new k ++ namesAfter k.keyword 0 after := by
  obtain ⟨ts, hts, hvisible, -⟩ := Reads.step_of_not_atEnd h.ends.ends hend
  have hends := hts.ends h.ends.ends
  rw [h.lineBreaks] at hvisible
  obtain ⟨us, hus, new, hnew, hhead, hnames⟩ :=
    line_names (s := s.advance true) hends h.lineBreaks (hr _ h.system) hrun
  obtain ⟨us', hus', hsinks⟩ := line_reads stacks_sinks declaration_reads ()
    (s.advance true).cursor.current (s := s.advance true) hends h.lineBreaks hrun
  obtain rfl := hus.tokens_unique hus'
  have hall := hts.trans hus
  have hbreaks := (onward_of_run hrun).lineBreaks
  have hsystem := (line_composed declaration_composed _ _).keeps_of_run
    (fun r' => RenderSystem.LeadsTo r r'.system) (fun _ _ _ hf => sceneChange_leadsTo hf) hrun
    h.system
  have hpassed := hall.passed_reverse
  -- the line closes no block that was open before it
  have hnet : net (ts ++ us) = 0 := by
    have hbalanced : Balanced u.cursor.tokens := by
      rw [hall.tokens_eq]
      exact h.balanced
    have hsane := hbalanced.sane u.cursor.passed.reverse ⟨u.cursor.rest, rfl⟩
    have hsink := hsinks.net_nonpos
    have hstep := net_visible false ts
    rw [hvisible] at hstep
    rw [net_cons, net_visible] at hsink
    rw [net_cons, net_nil] at hstep
    rw [hpassed, net_append, h.depth] at hsane
    rw [net_append] at hsane ⊢
    omega
  refine ⟨⟨hall.endsOnce h.ends, hbreaks.trans h.lineBreaks, ?_, ?_, hsystem⟩,
    (s.advance true).cursor.current :: visible false us, ?_, by simpa using hhead, new, hnew, ?_⟩
  · rw [hall.tokens_eq]
    exact h.balanced
  · rw [hpassed, net_append, h.depth, hnet]
    rfl
  · rw [hall.rest, visible_append, visible_append, hvisible]
    rfl
  · refine hnames ?_
    have hstep := net_visible false ts
    rw [hvisible, net_cons, net_nil] at hstep
    rw [net_append] at hnet
    rw [net_cons]
    omega

/-- At the end nothing is left that could declare. -/
theorem AtLine.atEnd {s : State (Scene σ)} (h : AtLine r s) (hend : s.AtEnd) :
    ∀ x ∈ visible false s.cursor.rest, x.isEndOfFile := by
  obtain ⟨ts, hts, hvisible, heof⟩ := Reads.step_of_atEnd h.ends.ends hend
  rw [h.lineBreaks] at hvisible
  have hrest := Cursor.rest_of_isEndOfFile (hts.endsOnce h.ends) heof
  rw [hts.rest, hrest, List.append_nil]
  rcases hvisible with hvisible | hvisible
  · rw [hvisible]
    simpa using heof
  · rw [hvisible]
    simp

/-- A script that is read to its end has declared what its tokens show. -/
theorem names_of_script (hr : RenderSystem.HasShaders r) {s t : State (Scene σ)} (h : AtLine r s)
    (hrun : script.run s = (.ok (), t)) (k : ResourceKind) :
    t.scene.names k = s.scene.names k ++ namesAfter k.keyword 0 (visible false s.cursor.rest) := by
  suffices key : AtLine r s → (∀ x ∈ (visible false s.cursor.rest).head?, x.kind ≠ .string) ∧
      ∀ k, t.scene.names k =
        s.scene.names k ++ namesAfter (ResourceKind.keyword k) 0 (visible false s.cursor.rest) from
    (key h).2 k
  refine lines_induction
    (motive := fun _ s => AtLine r s →
      (∀ x ∈ (visible false s.cursor.rest).head?, x.kind ≠ .string) ∧ ∀ k, t.scene.names k =
        s.scene.names k ++ namesAfter (ResourceKind.keyword k) 0 (visible false s.cursor.rest))
    (fun _ s hclose _ ht h => ?_) (fun _ s _ u hend _ hline ih h => ?_) hrun
  · have hend : s.AtEnd := .inr (by simp [Token.isEndOfFile, hclose])
    have hrest : ∀ x ∈ visible false s.cursor.rest, x.kind = .endOfFile := fun x hx => by
      simpa [Token.isEndOfFile] using h.atEnd hend x hx
    refine ⟨fun x hx => by simp [hrest x (List.mem_of_mem_head? hx)], fun k => ?_⟩
    rw [namesAfter_of_no_names fun x hx => by simp [hrest x hx], List.append_nil, ht]
    rfl
  · obtain ⟨hu, vs, hvisible, hhead, new, hnew, hnames⟩ := h.line hr hend hline
    obtain ⟨hnext, hrest⟩ := ih hu
    refine ⟨fun x hx => ?_, fun k => ?_⟩
    · rw [hvisible] at hx
      cases vs with
      | nil => exact hnext x hx
      | cons v vs => exact hhead x hx
    · rw [hrest k, hnew k, hvisible, hnames _ hnext, List.append_assoc]

end Parser

end Systems

/-! ## Whole loads -/

/-- Cutting a text makes no end of the file. -/
theorem Piece.not_isEndOfFile {c : Char} {cs rest : List Char} {piece : Piece}
    (h : cut c cs = .ok (piece, rest)) (p : Position) :
    ∀ t ∈ piece.tokens p, t.isEndOfFile = false := by
  unfold cut at h
  split at h
  · cases h; simp [tokens]
  · cases h; simp [tokens]
  · cases h; simp [tokens]
  · cases h; simp [tokens, single, Token.isEndOfFile]
  · cases h; simp [tokens, single, Token.isEndOfFile]
  · cases h; simp [tokens, single, Token.isEndOfFile]
  · unfold cutLiteral at h
    split at h
    · cases h; simp [tokens, Token.isEndOfFile]
    · cases h
  split at h
  · unfold cutNumber at h
    split at h
    split at h
    · cases h
      intro t ht
      rw [tokens, List.mem_singleton] at ht
      rw [ht, Token.isEndOfFile]
      split <;> rfl
    · cases h
  split at h
  · cases h; simp [tokens, Token.isEndOfFile]
  · unfold cutSymbol at h
    split at h
    · cases h; simp [tokens, single, Token.isEndOfFile]
    · cases h

theorem Source.endsOnce_tokensFrom {p : Position} {cs : List Char} {tokens : List Token}
    (h : tokensFrom p cs = .ok tokens) : EndsOnce tokens := by
  fun_induction tokensFrom p cs generalizing tokens with
  | case1 p =>
    cases h
    exact ⟨[], _, rfl, rfl, by simp⟩
  | case2 => cases h
  | case3 => cases h
  | case4 p c cs piece rest hcut more hmore ih =>
    cases h
    obtain ⟨front, last, rfl, hlast, hfront⟩ := ih hmore
    refine ⟨piece.tokens p ++ front, last, by simp, hlast, fun t ht => ?_⟩
    rcases List.mem_append.1 ht with ht | ht
    · exact Piece.not_isEndOfFile hcut p t ht
    · exact hfront t ht

theorem visible_false_eq (ts : List Token) :
    visible false ts = ts.filter fun t => !t.kind.isWhitespace := by
  simp only [visible, Cursor.skipsWhen_false]

theorem Loader.atLine_start {σ : Type} [RenderSystem σ] (l : Loader σ) (files : Files)
    {tokens : List Token} (hends : EndsOnce tokens) (hcheck : Brackets.check tokens = .ok ()) :
    Parser.AtLine l.system (l.start files tokens) ∧
      (l.start files tokens).cursor.rest = tokens := by
  have hrest : (l.start files tokens).cursor.rest = tokens := Cursor.rest_ofTokens hends
  have htokens : (l.start files tokens).cursor.tokens = tokens := hrest
  refine ⟨⟨?_, rfl, ?_, rfl, .refl⟩, hrest⟩
  · rw [htokens]
    exact hends
  · rw [htokens]
    exact Brackets.balanced_of_check hcheck

/-- **No declaration is dropped, invented, merged or reordered.** After a load that succeeds, over
a render system with shaders, the names in the catalog of each kind are the strings that directly
follow the keyword of the kind outside all braces, in their order and each once. -/
theorem names_of_readSource {σ : Type} [RenderSystem σ] {l : Loader σ}
    (hshaders : RenderSystem.HasShaders l.system) {files : Files} {source : String}
    (h : (l.readSource files source).1 = .ok ()) :
    ∃ tokens, Source.tokens source = .ok tokens ∧ ∀ kind,
      (l.readSource files source).2.resources.names kind = declaredNames kind tokens ∧
      (declaredNames kind tokens).Nodup := by
  cases htokens : Source.tokens source with
  | error e => simp [Loader.readSource, Loader.readTextOn, htokens] at h
  | ok tokens =>
    refine ⟨tokens, rfl, ?_⟩
    simp only [Loader.readSource, Loader.readTextOn, htokens] at h ⊢
    obtain ⟨-, hcheck, t, hrun, hafter⟩ := Loader.readOn_eq_ok (Prod.ext h rfl)
    obtain ⟨hline, hrest⟩ := l.begin.atLine_start files (Source.endsOnce_tokensFrom htokens) hcheck
    have hnodup := Parser.script_composed.keeps_of_run (fun s : Scene σ => ∀ k, (s.names k).Nodup)
      (fun _ _ s hf hs => sceneChange_nodup hf s hs) hrun
      (by intro k; cases k <;> exact List.nodup_nil)
    intro kind
    have hempty : (l.begin.start files tokens).scene.names kind = [] := by
      cases kind <;> rfl
    have hnames := Parser.names_of_script hshaders hline hrun kind
    rw [hrest, visible_false_eq, hempty, List.nil_append] at hnames
    have hafter := congrArg (fun l => l.resources.names kind) hafter
    rw [declaredNames, ← hnames]
    exact ⟨hafter, hnodup kind⟩

/-- A script that shows keywords and strings where nothing is declared. -/
theorem names_of_readSource_lookalikes :
    let files : Files := fun _ => .error .notFound
    let l := Loader.new Recorder.default "/"
    let source := "@material = \"x\"\n" ++
      "material /* \"y\" */ \"m\" \x7b discard \x7b material \"z\" \x7d \x7d\n" ++
      "shader \"s\" \x7b hlsl5 \x7b material \"z\" \x7b\x7d \x7d \x7d material \"n\" \x7b\x7d"
    (l.readSource files source).2.resources.names .material = ["m", "n"] ∧
      ∃ tokens, Source.tokens source = .ok tokens ∧ ∀ kind,
        (l.readSource files source).2.resources.names kind = declaredNames kind tokens ∧
        (declaredNames kind tokens).Nodup := by
  intro files l source
  exact ⟨by decide +kernel, names_of_readSource (Recorder.hasShaders rfl) (by decide +kernel)⟩

end MaterialScript
