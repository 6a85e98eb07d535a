/-
Every well-formed outline loads.

`Built` holds between the entries of a script: the scene has the resources
declared so far and no others. Each declaration leads from one such scene to
the next (`declaration_takes`), and so does the whole script
(`script_takes`), whose text is scanned into the words of its outline; hence
`readSource_outline`.
-/
import MaterialScript.Proofs.BlockAcceptance
import MaterialScript.Proofs.History
import MaterialScript.Proofs.Initializers
import MaterialScript.Proofs.Names

namespace MaterialScript

open Outline

namespace Outline

theorem wordsOf_definition (n : Name) (v : Setting) (ws : List Word) :
    wordsOf (Entry.definition n v).rows ++ ws = (.symbol .atSign, "") :: n.piece.word ::
      (.symbol .equal, "") :: (v.pieces.map Piece.word ++ (.newline, "") :: ws) := by
  simp [wordsOf, Entry.rows]

theorem wordsOf_declaration (d : Declaration) (ws : List Word) :
    wordsOf (Entry.declaration d).rows ++ ws =
      (.name, d.kind.keyword) :: (blockWords d.header.tail d.body ++ (.newline, "") :: ws) := by
  have hheader : d.header = keyword d.kind.keyword :: d.header.tail := by cases d <;> rfl
  rw [show (Entry.declaration d).rows = block 0 d.header d.body from rfl, hheader]
  simp [wordsOf_block, blockWords]

theorem wordsOf_rows_cons (e : Entry) (entries : List Entry) (ws : List Word) :
    wordsOf (rows (e :: entries)) ++ ws = wordsOf e.rows ++ (wordsOf (rows entries) ++ ws) := by
  rw [rows, List.flatMap_cons, wordsOf_append, List.append_assoc]
  rfl

end Outline

/-! ## Between declarations -/

/-- The scene has the resources of `made` and no others, shaders only where they are supported, and
its render system is set up like `r`. -/
structure Built (r : Recorder) (made : List (ResourceKind × String)) (s : Scene Recorder) :
    Prop where
  names : ∀ kind name,
    name ∈ s.names kind ↔ (kind, name) ∈ made ∧ (kind = .shader → r.supportsShaders)
  system : s.system.Alike r

namespace Built

variable {r : Recorder} {made : List (ResourceKind × String)} {s s' : Scene Recorder}
  {kind : ResourceKind} {name : String}

theorem kept (r : Recorder) (made : List (ResourceKind × String)) (kind : ResourceKind) :
    Kept kind (Built r made) := by
  intro α f hf s hs
  refine ⟨fun k n => ?_, (lineChange_system hf s).trans hs.system⟩
  rw [lineChange_names hf s k]
  exact hs.names k n

theorem not_mem (h : Built r made s) (hnew : (kind, name) ∉ made) : name ∉ s.names kind :=
  fun hmem => hnew ((h.names kind name).1 hmem).1

/-- Nothing but the names and the render system matters. -/
theorem congr (h : Built r made s) (hnames : ∀ k, s'.names k = s.names k)
    (hsystem : s'.system.Alike s.system) : Built r made s' :=
  ⟨fun k n => by rw [hnames]; exact h.names k n, hsystem.trans h.system⟩

/-- A resource has been added. -/
theorem declare (h : Built r made s) (hadds : s.Adds s'.toResources kind name)
    (hsystem : s'.system.Alike s.system) (hshader : kind = .shader → r.supportsShaders) :
    Built r (made ++ [(kind, name)]) s' := by
  refine ⟨fun k n => ?_, hsystem.trans h.system⟩
  rw [hadds k, List.mem_append, h.names k n, List.mem_append, List.mem_singleton, Prod.mk.injEq]
  by_cases hk : k = kind
  · subst hk
    simp only [if_true, List.mem_singleton, true_and]
    tauto
  · simp [hk]

/-- A shader has been skipped where shaders are not supported. -/
theorem skip (h : Built r made s) (hshaders : r.supportsShaders = false) :
    Built r (made ++ [(.shader, name)]) s := by
  refine ⟨fun k n => ?_, h.system⟩
  rw [h.names k n, List.mem_append, List.mem_singleton, Prod.mk.injEq, hshaders]
  by_cases hk : k = .shader <;> simp [hk]

end Built

namespace Parser

section Declarations

variable {r : Recorder} {made : List (ResourceKind × String)} {rest ws : List Word}

/-! ## Headers -/

theorem refuseDuplicate_takes {kind : ResourceKind} {t : Token} (h : (kind, t.text) ∉ made) :
    Takes false (Built r made) ws (refuseDuplicate kind t) (fun _ => Built r made) ws := by
  refine (Takes.inspect _).bind fun known => ?_
  cases known with
  | false => exact .pure fun _ hs => hs.2
  | true =>
    rintro s - - ⟨htrue, hs⟩
    exact absurd ((Resources.declares_iff _ _ _).1 htrue.symm) (hs.not_mem h)

theorem newName_takes {kind : ResourceKind} {name : String} (hname : name ≠ "")
    (h : (kind, name) ∉ made) :
    Takes false (Built r made) ((.string, name) :: ws) (newName kind)
      (fun x s => x = name ∧ Built r made s) ws := by
  refine (Takes.declaredName hname).bind_fact fun t ht => ?_
  refine (refuseDuplicate_takes (by rwa [ht])).bind fun _ => .pure fun s hs => ⟨ht, hs⟩

/-- The step of a declaration that adds its resource. -/
theorem add_takes {kind : ResourceKind} {name : String} {add : Scene Recorder → Scene Recorder}
    (hadds : ∀ s : Scene Recorder, name ∉ s.names kind → s.Adds (add s).toResources kind name)
    (hchange : DeclarationChange Unit fun s => ((), add s)) (hnew : (kind, name) ∉ made)
    (hshader : kind = .shader → r.supportsShaders) :
    Takes false (Built r made) ws (modify add) (fun _ => Built r (made ++ [(kind, name)])) ws :=
  .modify fun s hs => hs.declare (hadds s (hs.not_mem hnew)) (declarationChange_system hchange s)
    hshader

theorem layerKind_takes {P : Scene Recorder → Prop} {word : Name}
    (hword : word.text ∈ ["base", "standard", "relief"]) :
    Takes false P ((.name, word.text) :: ws) layerKind (fun _ => P) ws := by
  obtain ⟨kind, hkind⟩ : ∃ kind, LayerKind.ofKeyword? word.text = some kind := by
    have hwords : ∀ w ∈ ["base", "standard", "relief"], (LayerKind.ofKeyword? w).isSome := by decide
    exact Option.isSome_iff_exists.1 (hwords _ hword)
  refine (Takes.next rfl (by simp)).bind_fact fun t ht => ?_
  rw [Token.word_eq_iff] at ht
  rw [if_pos ht.1, ht.2, hkind]
  exact .pure fun _ hs => hs

/-- The vertex format of a shader may be left out. -/
theorem inputLayout_takes {P : Scene Recorder → Prop} (format : Option Name) :
    Takes false P ((format.map Name.piece).toList.map Piece.word ++ (.symbol .leftBrace, "") :: ws)
      inputLayout (fun _ => P) ws := by
  cases format with
  | none =>
    refine (Takes.next rfl (by simp)).bind_fact fun t ht => ?_
    rw [Token.word_eq_iff] at ht
    rw [ht.1]
    exact .pure fun _ hs => hs
  | some n =>
    refine (Takes.next rfl (by simp)).bind_fact fun t ht => ?_
    rw [Name.word_piece, Token.word_eq_iff] at ht
    rw [ht.1]
    refine Takes.bind (Q := fun _ => P) ((Takes.inspect _).mono (fun _ hs => hs) fun _ _ hs => hs.2)
      fun layout => ?_
    refine (Takes.noteIf _ _).bind fun _ => (Takes.expect .leftBrace).bind fun _ => ?_
    exact .pure fun _ hs => hs

section Header

variable {name : TextLiteral} (hname : name.text ≠ "")
include hname

theorem materialHeader_takes (hnew : (.material, name.text) ∉ made) :
    Takes false (Built r made) ((.string, name.text) :: (.symbol .leftBrace, "") :: ws)
      materialHeader (fun _ => Built r (made ++ [(.material, name.text)])) ws := by
  refine (newName_takes hname hnew).bind_fact fun x hx => (Takes.expect .leftBrace).bind fun _ => ?_
  rw [hx]
  refine (add_takes (fun _ => Scene.addMaterial_adds) (.addMaterial _) hnew (by simp)).bind ?_
  exact fun _ => .pure fun _ hs => hs

theorem vertexFormatHeader_takes (hnew : (.vertexFormat, name.text) ∉ made)
    (hreserved : ¬ "vertexFormat".toList <+: name.content) :
    Takes false (Built r made) ((.string, name.text) :: (.symbol .leftBrace, "") :: ws)
      vertexFormatHeader (fun _ => Built r (made ++ [(.vertexFormat, name.text)])) ws := by
  refine (Takes.declaredName hname).bind_fact fun t ht => ?_
  have hfree : BuiltinFormat.reserved.toList.isPrefixOf t.text.toList = false := by
    rw [ht, TextLiteral.text, String.toList_ofList, ← Bool.not_eq_true, List.isPrefixOf_iff_prefix]
    exact hreserved
  rw [hfree, ← ht]
  rw [← ht] at hnew
  refine Takes.bind (Q := fun _ => Built r made) (.pure fun _ hs => hs) fun _ => ?_
  refine (refuseDuplicate_takes hnew).bind fun _ => (Takes.expect .leftBrace).bind fun _ => ?_
  refine (add_takes (fun _ => Scene.addVertexFormat_adds) (.addVertexFormat _) hnew
    (by simp)).bind ?_
  exact fun _ => .pure fun _ hs => hs

theorem textureLayerHeader_takes {word : Name} (hnew : (.textureLayer, name.text) ∉ made)
    (hword : word.text ∈ ["base", "standard", "relief"]) :
    Takes false (Built r made)
      ((.string, name.text) :: (.name, word.text) :: (.symbol .leftBrace, "") :: ws)
      textureLayerHeader (fun _ => Built r (made ++ [(.textureLayer, name.text)])) ws := by
  refine (newName_takes hname hnew).bind_fact fun x hx => ?_
  refine (layerKind_takes hword).bind fun kind => ?_
  rw [hx]
  refine (Takes.expect .leftBrace).bind fun _ => ?_
  refine (add_takes (fun _ h => Scene.addTextureLayer_adds h kind) (.addTextureLayer _ kind) hnew
    (by simp)).bind ?_
  exact fun _ => .pure fun _ hs => hs

end Header

theorem shaderHeader_takes {name : TextLiteral} {t : Token} (ht : t.text = name.text)
    (hnew : (.shader, name.text) ∉ made) (hshaders : r.supportsShaders) (format : Option Name) :
    Takes false (Built r made)
      ((format.map Name.piece).toList.map Piece.word ++ (.symbol .leftBrace, "") :: ws)
      (shaderHeader t) (fun _ => Built r (made ++ [(.shader, name.text)])) ws := by
  refine (refuseDuplicate_takes (by rwa [ht])).bind fun _ => ?_
  refine (inputLayout_takes format).bind fun layout => ?_
  rw [ht]
  exact add_takes (fun _ h => Scene.addShader_adds h layout) (.addShader _ layout) hnew
    fun _ => hshaders

/-! ## Declarations -/

/-- A material declaration after its keyword. -/
theorem material_takes {name : TextLiteral} {lines : List Line} (hname : name.text ≠ "")
    (hnew : (.material, name.text) ∉ made) (hlines : ∀ l ∈ lines, l.Fits Keys.material) :
    Takes false (Built r made) (blockWords [name.piece] (lines.map (·.row 1)) ++ rest) material
      (fun _ => Built r (made ++ [(.material, name.text)])) rest := by
  rw [blockWords_append]
  refine (materialHeader_takes hname hnew).bind fun _ =>
    lines_keep rfl hlines (fun l hl _ t rest ht => ?_) () rest
  exact materialLine_takes (.kept r _ _) hl ht

/-- A vertex format declaration after its keyword. -/
theorem vertexFormat_takes {name : TextLiteral} {components : List Component}
    (hname : name.text ≠ "") (hnew : (.vertexFormat, name.text) ∉ made)
    (hreserved : ¬ "vertexFormat".toList <+: name.content)
    (hcomponents : ∀ c ∈ components, c.WellFormed) :
    Takes false (Built r made) (blockWords [name.piece] (components.flatMap Component.rows) ++ rest)
      vertexFormat (fun _ => Built r (made ++ [(.vertexFormat, name.text)])) rest := by
  rw [blockWords_append]
  refine (vertexFormatHeader_takes hname hnew hreserved).bind fun _ =>
    blockBody_keeps Component.wordsOf_rows (fun c hc heq => ?_) (fun c hc _ t rest ht => ?_) () rest
  · exact absurd (hcomponents c hc).word (by rw [heq]; decide)
  · exact attributeBlock_takes (.kept r _ _) (hcomponents c hc) ht

/-- A texture layer declaration after its keyword. -/
theorem textureLayer_takes {name : TextLiteral} {word : Name} {lines : List Line}
    (hname : name.text ≠ "") (hnew : (.textureLayer, name.text) ∉ made)
    (hword : word.text ∈ ["base", "standard", "relief"]) (hlines : ∀ l ∈ lines, l.Fits Keys.layer) :
    Takes false (Built r made)
      (blockWords [name.piece, word.piece] (lines.map (·.row 1)) ++ rest) textureLayer
      (fun _ => Built r (made ++ [(.textureLayer, name.text)])) rest := by
  rw [blockWords_append]
  refine (textureLayerHeader_takes hname hnew hword).bind fun _ =>
    lines_keep rfl hlines (fun l hl _ t rest ht => ?_) () rest
  exact layerLine_takes (.kept r _ _) hl ht

/-- A shader declaration after its keyword, read or skipped. -/
theorem shader_takes {name : TextLiteral} {format : Option Name} {dialects : List Dialect}
    (hname : name.text ≠ "") (hnew : (.shader, name.text) ∉ made)
    (hdialects : ∀ d ∈ dialects, d.WellFormed) :
    Takes false (Built r made)
      (blockWords (name.piece :: (format.map Name.piece).toList) (dialects.flatMap Dialect.rows) ++
        rest) shader (fun _ => Built r (made ++ [(.shader, name.text)])) rest := by
  rw [blockWords_cons, TextLiteral.word_piece, List.cons_append]
  refine (Takes.declaredName hname).bind_fact fun t ht => ?_
  have hsupports : ∀ s : Scene Recorder, Built r made s →
      RenderSystem.supportsShaders s.system = r.supportsShaders :=
    fun s hs => hs.system.supportsShaders
  refine Takes.bind_fact (φ := fun supported => supported = r.supportsShaders)
    (.build fun s hs => ⟨hsupports s hs, hs⟩) fun supported hsupported => ?_
  cases hshaders : r.supportsShaders with
  | false =>
    rw [hsupported, hshaders]
    refine (Takes.note _).bind fun _ => ?_
    refine (skipBlock_takes (fun p hp => ?_) (.flatMap Dialect.nested)).mono
      (fun s hs => hs.skip hshaders) fun _ _ hs => hs
    obtain ⟨n, -, rfl⟩ : ∃ n, format = some n ∧ n.piece = p := by simpa using hp
    rfl
  | true =>
    rw [hsupported, hshaders, blockWords_append]
    refine (shaderHeader_takes ht hnew hshaders format).bind fun _ =>
      blockBody_keeps Dialect.wordsOf_rows (fun d hd heq => ?_) (fun d hd _ t rest ht => ?_) () rest
    · exact absurd (hdialects d hd).word (by rw [heq]; decide)
    · exact dialectBlock_takes (.kept r _ _) (hdialects d hd) ht

/-! ## Textures -/

theorem TextureDraft.isSome_make? {d : TextureDraft} {r : Recorder}
    (h : d.settings.fileName = "" ∨ d.settings.fileName ∉ r.missing) : (d.make? r).1.isSome := by
  unfold TextureDraft.make?
  split
  · rfl
  · rename_i hfile
    simp [RenderSystem.loadTexture, h.resolve_left hfile]

/-- A texture whose file can be loaded is made and added. -/
theorem finishTexture_takes {name : String} {files : List String}
    (hfiles : ∀ path ∈ files, path ∉ r.missing) (hnew : (.texture, name) ∉ made) :
    Takes false (fun s => Built r made s ∧ NamesOneOf files s) ws (finishTexture name)
      (fun _ => Built r (made ++ [(.texture, name)])) ws := by
  have htake : Takes false (fun s => Built r made s ∧ NamesOneOf files s) ws
      (build (Scene.takeTexture (σ := Recorder)))
      (fun draft s => (draft.settings.fileName = "" ∨ draft.settings.fileName ∈ files) ∧
        Built r made s) ws :=
    .build fun s hs => ⟨hs.2, hs.1.congr (fun _ => rfl) (.refl _)⟩
  refine Takes.current.bind fun close => htake.bind_fact fun draft hdraft => ?_
  have hadd : ∀ s : Scene Recorder, Built r made s → (s.addTexture name draft).1 = true := by
    intro s hs
    have hpresent : draft.settings.fileName = "" ∨ draft.settings.fileName ∉ s.system.missing :=
      hdraft.imp_right fun hfile => mt (hs.system.missing _).1 (hfiles _ hfile)
    obtain ⟨t, ht⟩ := Option.isSome_iff_exists.1 (TextureDraft.isSome_make? hpresent)
    unfold Scene.addTexture
    split
    · rfl
    · rename_i hnone
      rw [hnone] at ht
      cases ht
  refine Takes.bind_fact (φ := (· = true)) (I := Built r (made ++ [(.texture, name)]))
    (.build fun s hs => ⟨hadd s hs, ?_⟩) fun added hadded => ?_
  · exact hs.declare (Scene.addTexture_adds (hs.not_mem hnew) (hadd s hs))
      (declarationChange_system (.addTexture _ _) s) (by simp)
  · rw [hadded]
    exact .pure fun _ hs => hs

/-- A texture declaration after its keyword. -/
theorem texture_takes {name : TextLiteral} {items : List TextureItem} {files : List String}
    (hname : name.text ≠ "") (hnew : (.texture, name.text) ∉ made)
    (hitems : ∀ i ∈ items, i.WellFormed) (hfiles : ∀ path ∈ files, path ∉ r.missing)
    (himages : ∀ l, .line l ∈ items → l.NamesOneOf files) :
    Takes false (Built r made) (blockWords [name.piece] (items.flatMap TextureItem.rows) ++ rest)
      texture (fun _ => Built r (made ++ [(.texture, name.text)])) rest := by
  have hheader : Takes false (Built r made) ((.string, name.text) :: (.symbol .leftBrace, "") ::
      (.newline, "") :: (wordsOf (items.flatMap TextureItem.rows) ++
        (.symbol .rightBrace, "") :: rest)) textureHeader
      (fun x s => x = name.text ∧ Built r made s ∧ NamesOneOf files s)
      ((.newline, "") :: (wordsOf (items.flatMap TextureItem.rows) ++
        (.symbol .rightBrace, "") :: rest)) := by
    refine (newName_takes hname hnew).bind_fact fun x hx => ?_
    refine (Takes.expect .leftBrace).bind fun _ => ?_
    refine Takes.bind (Q := fun _ s => Built r made s ∧ NamesOneOf files s)
      (.modify fun s hs => ⟨hs.congr (fun _ => rfl) (.refl _), .inl rfl⟩) fun _ => ?_
    exact .pure fun _ hs => ⟨hx, hs⟩
  rw [blockWords_append]
  refine hheader.bind_fact fun x hx => ?_
  rw [hx]
  refine Takes.bind (blockBody_keeps TextureItem.wordsOf_rows (fun i hi => ?_)
    (fun i hi _ t rest ht => ?_) () rest) fun _ => finishTexture_takes hfiles hnew
  · cases i with
    | line l => exact Line.Fits.ne (hitems _ hi) rfl
    | filter lines => simp [TextureItem.key]
  · cases i with
    | line l => exact textureLine_takes (.kept r _ _) (hitems _ hi) (himages l hi) ht
    | filter lines => exact filterBlock_takes (.kept r _ _) (hitems _ hi) ht

/-! ## Scripts -/

/-- A declaration leads from the resources before it to those with its own. -/
theorem declaration_takes {d : Outline.Declaration} (hname : d.name.text ≠ "") (h : d.WellFormed)
    (hnew : (d.kind, d.name.text) ∉ made) (himages : ∀ path ∈ d.imageFiles, path ∉ r.missing)
    {t : Token} (ht : t.text = d.kind.keyword) :
    Takes false (Built r made) (blockWords d.header.tail d.body ++ rest) (declaration () t)
      (fun _ => Built r (made ++ [(d.kind, d.name.text)])) rest := by
  rw [declaration, ht]
  cases d with
  | material name lines => exact material_takes hname hnew h
  | shader name format dialects => exact shader_takes hname hnew h
  | vertexFormat name components => exact vertexFormat_takes hname hnew h.1 h.2
  | texture name items =>
    refine texture_takes hname hnew h himages fun l hl first more hkey hsetting => ?_
    obtain ⟨key, equal, setting⟩ := l
    cases hsetting
    have hkey : key.text = "imageFile" := hkey
    exact List.mem_flatMap.2 ⟨_, hl, by simp [hkey]⟩
  | textureLayer name word lines => exact textureLayer_takes hname hnew h.1 h.2

/-! ## Definitions -/

/-- A token that is neither whitespace nor an `@` is an item of its own. -/
theorem items_token {t : Token} (hspace : t.isSpace = false) (hat : t.isSymbol .atSign = false)
    (ts : List Token) : items (t :: ts) = .token t :: items ts :=
  items_cons hspace fun u _ => by simp [Token.refersTo, hat]

theorem exists_joined (vars : Variables) {more : List TextLiteral} {line : List Token}
    (h : line.map Token.word = more.flatMap fun t => [(.symbol .plus, ""), t.piece.word]) :
    ∃ s, Joined vars (items line) s := by
  induction more generalizing line with
  | nil =>
    rw [List.map_eq_nil_iff.1 h]
    exact ⟨_, .nil⟩
  | cons t more ih =>
    obtain ⟨p, us, rfl, hp, hus⟩ := List.map_eq_cons_iff.1 h
    obtain ⟨u, line, rfl, hu, hline⟩ := List.map_eq_cons_iff.1 hus
    rw [Token.word_eq_iff] at hp
    rw [TextLiteral.word_piece, Token.word_eq_iff] at hu
    obtain ⟨s, hs⟩ := ih hline
    rw [items_token (by simp [Token.isSpace, hp.1]) (by simp [Token.isSymbol, hp.1]),
      items_token (by simp [Token.isSpace, hu.1]) (by simp [Token.isSymbol, hu.1])]
    exact ⟨_, .text (by simp [Token.isSymbol, hp.1]) (.literal hu.1) hs⟩

/-- Every number and every string of an outline denotes a value. -/
theorem exists_denotes (vars : Variables) {v : Setting} (h : v.Is .number ∨ v.Is .text)
    {line : List Token} (hline : line.map Token.word = v.pieces.map Piece.word) :
    ∃ value, Denotes vars (items line) value := by
  have hnumber : ∀ {t : Token} (n : NumberLiteral), t.word = n.piece.word →
      items [t] = [.token t] ∧ NumberTerm vars (.token t) n.value := by
    intro t n ht
    rw [NumberLiteral.word_piece, Token.word_eq_iff] at ht
    have hkind := n.kind_cases
    rw [← ht.1] at hkind
    refine ⟨?_, .literal ?_ (by rw [ht.2, n.read?_eq])⟩
    · rcases hkind with hkind | hkind <;>
        exact items_token (by simp [Token.isSpace, hkind]) (by simp [Token.isSymbol, hkind]) []
    · rcases hkind with hkind | hkind <;> rw [hkind] <;> rfl
  cases v with
  | number v =>
    obtain ⟨negated, n⟩ := v
    cases negated with
    | false =>
      obtain ⟨t, rfl, ht⟩ := List.map_eq_singleton_iff.1 hline
      obtain ⟨hitems, hterm⟩ := hnumber n ht
      exact ⟨_, by rw [hitems]; exact .number hterm⟩
    | true =>
      obtain ⟨m, us, rfl, hm, hus⟩ := List.map_eq_cons_iff.1 hline
      obtain ⟨t, rfl, ht⟩ := List.map_eq_singleton_iff.1 hus
      rw [word_mark, Token.word_eq_iff] at hm
      obtain ⟨hitems, hterm⟩ := hnumber n ht
      refine ⟨.number (-n.value), ?_⟩
      rw [items_token (by simp [Token.isSpace, hm.1]) (by simp [Token.isSymbol, hm.1]), hitems]
      exact .negated (by simp [Token.isSymbol, hm.1]) hterm
  | texts first more =>
    have hwords : line.map Token.word =
        first.piece.word :: more.flatMap fun t => [(.symbol .plus, ""), t.piece.word] := by
      simpa [Setting.pieces, List.map_flatMap] using hline
    obtain ⟨t, us, rfl, ht, hus⟩ := List.map_eq_cons_iff.1 hwords
    rw [TextLiteral.word_piece, Token.word_eq_iff] at ht
    obtain ⟨s, hs⟩ := exists_joined vars hus
    refine ⟨.text (t.text ++ s), ?_⟩
    rw [items_token (by simp [Token.isSpace, ht.1]) (by simp [Token.isSymbol, ht.1])]
    exact .text (.literal ht.1) hs
  | _ => rcases h with h | h <;> cases h

/-- The value of a definition, which ends with its line. -/
theorem initializer_takes {P : Scene Recorder → Prop} {v : Setting}
    (h : v.Is .number ∨ v.Is .text) :
    Takes true P (v.pieces.map Piece.word ++ (.newline, "") :: rest) initializer (fun _ => P)
      rest := by
  intro s hm hahead hP
  obtain ⟨line, us, hrest, hline, hus⟩ := List.map_eq_append_iff.1 hahead
  obtain ⟨e, more, rfl, he, rfl⟩ := List.map_eq_cons_iff.1 hus
  rw [Token.word_eq_iff] at he
  have honLine : OnLine s line e := by
    refine ⟨⟨more, hrest⟩, fun t ht => ?_, by simp [Token.endsLine, he.1], hm⟩
    have hword : t.word ∈ v.pieces.map Piece.word := hline ▸ List.mem_map_of_mem ht
    obtain ⟨p, hp, hpt⟩ := List.mem_map.1 hword
    have hkind : t.kind = p.word.1 := congrArg Prod.fst hpt.symm
    obtain ⟨hnewline, heof⟩ := (v.plain p hp).writable.goesOn
    simp [Token.endsLine, hkind, hnewline, heof]
  obtain ⟨value, hvalue⟩ := exists_denotes s.bindings h hline
  have hrun := (initializer_eq_ok_iff honLine).2 ⟨hvalue, rfl⟩
  refine ⟨value, _, hrun, ?_, hP⟩
  rw [State.ahead, State.past, hrest]
  simp

/-- A definition after its `@`, with its line. -/
theorem variableDefinition_takes {P : Scene Recorder → Prop} {v : Setting} (n : Name)
    (h : v.Is .number ∨ v.Is .text) :
    Takes false P (n.piece.word :: (.symbol .equal, "") ::
        (v.pieces.map Piece.word ++ (.newline, "") :: rest)) variableDefinition (fun _ => P)
      rest := by
  refine .withLineBreaks (Takes.variableName.bind_fact fun name _ => ?_)
  refine (Takes.consult _).bind fun bound => (Takes.noteIf _ _).bind fun _ => ?_
  refine (Takes.next rfl (by simp)).bind_fact fun t ht => ?_
  rw [Token.word_eq_iff] at ht
  rw [if_pos (by simp [Token.isSymbol, ht.1])]
  exact (initializer_takes h).bind fun value => .setVariable name value

/-! ## Scripts -/

/-- What is left of a script is read to its end, whatever has been read before. -/
theorem script_takes {entries : List Entry} (h : ∀ e ∈ entries, e.WellFormed)
    (hnames : (made ++ entries.flatMap Entry.declared).Nodup)
    (himages : ∀ path ∈ entries.flatMap Entry.imageFiles, path ∉ r.missing) :
    Takes false (Built r made) (wordsOf (rows entries) ++ [(.endOfFile, "")]) script
      (fun _ => Built r (made ++ entries.flatMap Entry.declared)) [] := by
  induction entries generalizing made with
  | nil =>
    refine .round_end fun t ht => ?_
    rw [closeAtEnd, if_pos ht]
    exact .pure fun s hs => by simpa using hs
  | cons e entries ih =>
    have he := h e (by simp)
    rw [List.flatMap_cons, List.forall_mem_append] at himages
    have hdeclared : made ++ (e :: entries).flatMap Entry.declared =
        made ++ e.declared ++ entries.flatMap Entry.declared := by
      rw [List.flatMap_cons, List.append_assoc]
    rw [hdeclared] at hnames ⊢
    have hentries := ih (fun x hx => h x (List.mem_cons_of_mem e hx)) hnames himages.2
    rw [wordsOf_rows_cons]
    cases e with
    | definition name value =>
      rw [Entry.declared, List.append_nil] at hentries ⊢
      rw [wordsOf_definition]
      refine .round_more (Q := fun _ => Built r made) rfl (by simp) (fun t ht => ?_)
        fun _ => hentries
      rw [Token.word_eq_iff] at ht
      refine lineOrClose_takes (by simp [ht.1]) ?_
      rw [line, ht.1]
      exact (variableDefinition_takes name he).bind fun _ => .pure fun _ hs => hs
    | declaration d =>
      have hnew : (d.kind, d.name.text) ∉ made := by
        intro hmem
        have hdisjoint := (List.nodup_append.1 (List.nodup_append.1 hnames).1).2.2
        exact hdisjoint _ hmem _ (List.mem_singleton_self _) rfl
      have hkeyword : d.kind.keyword ≠ "discard" := by cases d.kind <;> decide
      rw [wordsOf_declaration]
      refine .round_more (Q := fun _ => Built r (made ++ [(d.kind, d.name.text)])) rfl (by simp)
        (fun t ht => ?_) fun _ => .round_skip (w := (.newline, "")) rfl (by simp) hentries
      have hname := Token.word_eq_iff.1 ht
      exact lineOrClose_takes (by simp [hname.1])
        (namedLine_takes ht hkeyword (declaration_takes he.1 he.2 hnew himages.1 hname.2))

end Declarations

end Parser

namespace Loader

/-- The tokens of an outline end with its words. -/
theorem endsOnce_of_words {entries : List Entry} {ts : List Token}
    (h : ts.map Token.word = wordsOf (rows entries) ++ [(.endOfFile, "")]) : EndsOnce ts := by
  obtain ⟨front, us, rfl, hfront, hus⟩ := List.map_eq_append_iff.1 h
  obtain ⟨e, rfl, he⟩ := List.map_eq_singleton_iff.1 hus
  refine ⟨front, e, rfl, by simp [Token.isEndOfFile, (Token.word_eq_iff.1 he).1], fun t ht => ?_⟩
  have hword := (nested_rows entries).goesOn t.word (hfront ▸ List.mem_map_of_mem ht)
  simpa [Token.isEndOfFile, Token.word] using hword

theorem check_of_words {entries : List Entry} {ts : List Token}
    (h : ts.map Token.word = wordsOf (rows entries) ++ [(.endOfFile, "")]) :
    Brackets.check ts = .ok () := by
  have hclosed := (nested_rows entries).closed.append (Brackets.closed_singleton
    (w := (.endOfFile, "")) (by simp))
  rw [← h] at hclosed
  exact hclosed.check

/-- An entry opens with a word. -/
theorem declaresNothing_of_words {entries : List Entry} (hne : entries ≠ []) {ts : List Token}
    (h : ts.map Token.word = wordsOf (rows entries) ++ [(.endOfFile, "")]) :
    declaresNothing ts = false := by
  obtain ⟨e, entries, rfl⟩ := List.exists_cons_of_ne_nil hne
  obtain ⟨w, ws, hwords, hw⟩ :
      ∃ w ws, wordsOf (rows (e :: entries)) ++ [(.endOfFile, "")] = w :: ws ∧
        w.1.isWhitespace = false ∧ w.1 ≠ .endOfFile := by
    rw [wordsOf_rows_cons]
    cases e with
    | definition name value => exact ⟨_, _, wordsOf_definition name value _, rfl, by simp⟩
    | declaration d => exact ⟨_, _, wordsOf_declaration d _, rfl, by simp⟩
  obtain ⟨t, ts, rfl, rfl, -⟩ := List.map_eq_cons_iff.1 (h.trans hwords)
  have ht : t.kind.isWhitespace = false ∧ t.kind ≠ .endOfFile := hw
  simp [declaresNothing, Token.isEndOfFile, ht.1, ht.2]

/-- Before the first entry nothing has been declared. -/
theorem built_start (l : Loader Recorder) (files : Files) (ts : List Token) :
    Built l.system [] (l.begin.start files ts).scene := by
  refine ⟨fun kind name => ?_, .refl _⟩
  have hempty : (l.begin.start files ts).scene.names kind = [] := by cases kind <;> rfl
  simp [hempty]

theorem readOn_outline (l : Loader Recorder) (files : Files) {entries : List Entry}
    (hne : entries ≠ []) (h : Outline.WellFormed entries)
    (himages : ∀ path ∈ entries.flatMap Entry.imageFiles, path ∉ l.system.missing)
    {ts : List Token} (hwords : ts.map Token.word = wordsOf (rows entries) ++ [(.endOfFile, "")]) :
    (l.begin.readOn files ts).1 = .ok () ∧
      ∀ kind name, name ∈ (l.begin.readOn files ts).2.resources.names kind ↔
        (kind, name) ∈ entries.flatMap Entry.declared ∧
          (kind = .shader → l.system.supportsShaders) := by
  have hahead : (l.begin.start files ts).ahead = wordsOf (rows entries) ++ [(.endOfFile, "")] := by
    rw [← hwords]
    exact congrArg (List.map Token.word) (Cursor.rest_ofTokens (endsOnce_of_words hwords))
  have hnames : ([] ++ entries.flatMap Entry.declared).Nodup := h.names
  obtain ⟨_, s, hrun, -, hbuilt⟩ := Parser.script_takes h.each hnames himages rfl hahead
    (built_start l files ts)
  unfold readOn
  rw [declaresNothing_of_words hne hwords, check_of_words hwords]
  unfold readFrom
  simp only [Bool.false_eq_true, if_false, hrun]
  exact ⟨trivial, hbuilt.names⟩

/-- **Every well-formed outline loads.** Written out, an outline that is not empty and whose image
files can all be loaded is read without an error, and the resources are then the declared ones,
without shaders if the render system has none. -/
theorem readSource_outline (l : Loader Recorder) (files : Files) {entries : List Entry}
    (hne : entries ≠ []) (h : Outline.WellFormed entries)
    (himages : ∀ path ∈ entries.flatMap Entry.imageFiles, path ∉ l.system.missing) :
    (l.readSource files (Outline.text entries)).1 = .ok () ∧
      ∀ kind name, name ∈ (l.readSource files (Outline.text entries)).2.resources.names kind ↔
        (kind, name) ∈ entries.flatMap Entry.declared ∧
          (kind = .shader → l.system.supportsShaders) := by
  obtain ⟨us, htokens, ts, hspaced, hwords⟩ := exists_tokens_text entries
  obtain ⟨front, e, hts, he, -⟩ := endsOnce_of_words hwords
  have hread : l.readSource files (Outline.text entries) = l.begin.readOn files ts := by
    rw [readSource, readTextOn, htokens]
    exact l.begin.readOn_spaced files (by simp [hts]) he hspaced
  rw [hread]
  exact readOn_outline l files hne h himages hwords

/-- A wall: a definition, its texture, shader, vertex format, material and layer. -/
def wall : List Entry :=
  let two : NumberLiteral := .ofDigits ['2'] ⟨by simp, List.forall_mem_singleton.2 rfl⟩
  let word (key value : Name) : Line := ⟨key, true, .word value⟩
  [.definition (.of "image") (.texts (.of "brick.png") []),
    .declaration (.texture (.of "brick")
      [.line ⟨.of "imageFile", true, .texts (.of "brick") [.of ".png"]⟩,
        .filter [⟨.of "mipMaps", false, .flag true⟩, word (.of "wrap") (.of "repeat")]]),
    .declaration (.shader (.of "lit") (some (.of "vertexFormatFull"))
      [⟨.of "glsl", [⟨.of "vertex", some (.of "main"),
        [word (.of "version") (.of "std120"), ⟨.of "source", false, .texts (.of "code") []⟩]⟩]⟩]),
    .declaration (.vertexFormat (.of "corner")
      [⟨.of "universal", some (.of "weight"), [⟨.of "size", true, .number ⟨false, two⟩⟩]⟩]),
    .declaration (.material (.of "brick") [word (.of "shading") (.of "phong"),
      ⟨.of "diffuse", false, .numbers ⟨false, two⟩ [⟨true, two⟩, ⟨false, two⟩]⟩]),
    .declaration (.textureLayer (.of "wall") (.of "base") [word (.of "tex") (.of "brick")])]

theorem readSource_outline_wall :
    let l := Loader.new Recorder.default "/data"
    let files : Files := fun _ => .error .notFound
    let names := [(.texture, "brick"), (.shader, "lit"), (.vertexFormat, "corner"),
      (.material, "brick"), (.textureLayer, "wall")]
    wall ≠ [] ∧ Outline.WellFormed wall ∧
      (∀ path ∈ wall.flatMap Entry.imageFiles, path ∉ l.system.missing) ∧
      (l.readSource files (Outline.text wall)).1 = .ok () ∧
      ∀ kind name, name ∈ (l.readSource files (Outline.text wall)).2.resources.names kind ↔
        (kind, name) ∈ names := by
  intro l files names
  have hne : wall ≠ [] := by simp [wall]
  have hwell : Outline.WellFormed wall := by decide +kernel
  have himages : ∀ path ∈ wall.flatMap Entry.imageFiles, path ∉ l.system.missing := by
    decide +kernel
  have hdeclared : wall.flatMap Entry.declared = names := by decide +kernel
  obtain ⟨hread, hnames⟩ := readSource_outline l files hne hwell himages
  refine ⟨hne, hwell, himages, hread, fun kind name => ?_⟩
  rw [hnames, hdeclared]
  exact and_iff_left fun _ => rfl

/-- What is refused: a script without entries, code from a file before the version of its stage,
and an image file that cannot be loaded. -/
theorem readSource_outline_refused :
    let files : Files := fun _ => .error .notFound
    let early : Stage := ⟨.of "vertex", none,
      [⟨.of "sourceFile", false, .texts (.of "lit.vert") []⟩,
        ⟨.of "version", false, .word (.of "std120")⟩]⟩
    let lit := [Entry.declaration (.shader (.of "lit") none [⟨.of "glsl", [early]⟩])]
    let brick := [Entry.declaration (.texture (.of "brick")
      [.line ⟨.of "imageFile", false, .texts (.of "brick.png") []⟩])]
    (Outline.WellFormed [] ∧
      ((Loader.new Recorder.default "/data").readSource files (Outline.text [])).1 =
        .error (.unplaced .invalidTokenStream)) ∧
    ((∀ l ∈ early.lines, l.Fits Keys.stage) ∧ (∃ l ∈ early.lines, l.key.text = "version") ∧
      (∀ l ∈ early.lines, l.key.text ≠ "source") ∧
      ((Loader.new Recorder.default "/data").readSource files (Outline.text lit)).1 =
        .error (.placed ⟨4, 4⟩ .missingShaderVersion)) ∧
    Outline.WellFormed brick ∧
      ((Loader.new (Recorder.default.withMissing "brick.png") "/data").readSource files
        (Outline.text brick)).1 = .error (.placed ⟨3, 1⟩ (.textureLoad "brick.png")) := by
  decide +kernel

end Loader

end MaterialScript
