/-
What a declaration that fails leaves behind.

A declaration adds its entry when its header is read up to the `{`
(`Commits`), and its lines change that entry and no other
(`lineChange_appends`). A texture adds its entry at its very end. So a
declaration that fails has either added nothing or just the one entry it names
(`declaration_fails`). Which of the two it is can be told from the tokens it has
passed, since a header that fails stops before its `{` (`Stops`).
-/
import MaterialScript.Loader
import MaterialScript.Proofs.Growth
import MaterialScript.RenderSystem.Recorder

namespace MaterialScript

open Braces

/-! ## One more entry -/

namespace Resources

/-- `r'` is `r` with one more entry at the end of the catalog of this kind, under this name. -/
def Appends (r : Resources) (kind : ResourceKind) (name : String) (r' : Resources) : Prop :=
  match kind with
  | .material => ∃ m, r' = { r with materials := r.materials.push name m }
  | .shader => ∃ s, r' = { r with shaders := r.shaders.push name s }
  | .vertexFormat => ∃ f, r' = { r with vertexFormats := r.vertexFormats.push name f }
  | .texture => ∃ t, r' = { r with textures := r.textures.push name t }
  | .textureLayer => ∃ l, r' = { r with textureLayers := r.textureLayers.push name l }

namespace Appends

variable {r q : Resources} {name : String}

theorem modifyMaterial (h : r.Appends .material name q) (f : Material → Material) :
    r.Appends .material name { q with materials := q.materials.modifyCurrent f } := by
  obtain ⟨m, rfl⟩ := h
  exact ⟨f m, by rw [Catalog.modifyCurrent_push]⟩

theorem modifyShader (h : r.Appends .shader name q) (f : Shader → Shader) :
    r.Appends .shader name { q with shaders := q.shaders.modifyCurrent f } := by
  obtain ⟨s, rfl⟩ := h
  exact ⟨f s, by rw [Catalog.modifyCurrent_push]⟩

theorem modifyVertexFormat (h : r.Appends .vertexFormat name q) (f : VertexFormat → VertexFormat) :
    r.Appends .vertexFormat name { q with vertexFormats := q.vertexFormats.modifyCurrent f } := by
  obtain ⟨v, rfl⟩ := h
  exact ⟨f v, by rw [Catalog.modifyCurrent_push]⟩

theorem modifyTextureLayer (h : r.Appends .textureLayer name q) (f : TextureLayer → TextureLayer) :
    r.Appends .textureLayer name { q with textureLayers := q.textureLayers.modifyCurrent f } := by
  obtain ⟨l, rfl⟩ := h
  exact ⟨f l, by rw [Catalog.modifyCurrent_push]⟩

end Appends

end Resources

section Changes

variable {σ : Type} [RenderSystem σ] {name : String} {s : Scene σ}

theorem Scene.addMaterial_appends (h : name ∉ s.names .material) :
    s.toResources.Appends .material name (s.addMaterial name).toResources :=
  ⟨_, congrArg (fun c => { s.toResources with materials := c }) (Catalog.insert_of_not_mem h _)⟩

theorem Scene.addShader_appends (h : name ∉ s.names .shader) (layout : Option InputLayout) :
    s.toResources.Appends .shader name (s.addShader name layout).toResources :=
  ⟨_, congrArg (fun c => { s.toResources with shaders := c }) (Catalog.insert_of_not_mem h _)⟩

theorem Scene.addVertexFormat_appends (h : name ∉ s.names .vertexFormat) :
    s.toResources.Appends .vertexFormat name (s.addVertexFormat name).toResources :=
  ⟨_, congrArg (fun c => { s.toResources with vertexFormats := c })
    (Catalog.insert_of_not_mem h _)⟩

theorem Scene.addTextureLayer_appends (h : name ∉ s.names .textureLayer) (kind : LayerKind) :
    s.toResources.Appends .textureLayer name (s.addTextureLayer name kind).toResources :=
  ⟨_, congrArg (fun c => { s.toResources with textureLayers := c })
    (Catalog.insert_of_not_mem h _)⟩

/-- A texture that cannot be made is not added. -/
theorem Scene.addTexture_failed {draft : TextureDraft} (h : (s.addTexture name draft).1 = false) :
    (s.addTexture name draft).2.toResources = s.toResources := by
  unfold Scene.addTexture at h ⊢
  split at h
  · cases h
  · rfl

/-- The lines of a declaration change the entry it has added, and no other. -/
theorem lineChange_appends {kind : ResourceKind} {α : Type} {f : Scene σ → α × Scene σ}
    (hf : LineChange kind α f) {r : Resources} (h : r.Appends kind name s.toResources) :
    r.Appends kind name (f s).2.toResources := by
  have compile : ∀ compiler, r.Appends .shader name s.toResources →
      r.Appends .shader name (Scene.compileWith compiler s).2.toResources := fun _ hs =>
    Scene.compileWith_keeps (P := fun s => r.Appends .shader name s.toResources) hs fun _ _ _ _ =>
      hs.modifyShader _
  cases hf
  case material change => exact h.modifyMaterial change
  case vertexFormat change => exact h.modifyVertexFormat change
  case textureLayer change => exact h.modifyTextureLayer change
  case compileStage => exact compile _ h
  case compileShader => exact compile _ h
  all_goals exact h

end Changes

namespace Parser

variable {ρ α β : Type} {m : Bool}

/-! ## Where parsers stop -/

/-- When `p` fails, the tokens it has passed, whitespace left out, are in `E`. -/
def Stops (m : Bool) (p : Parser ρ α) (E : List Token → Prop) : Prop :=
  ∀ ⦃s : State ρ⦄ ⦃e : ScriptError⦄ ⦃u : State ρ⦄, Ends s.cursor.tokens →
    s.cursor.lineBreaksCount = m → p.run s = (.error e, u) →
    ∃ ts, s.cursor.Passes ts u.cursor ∧ E (visible m ts)

namespace Stops

variable {p : Parser ρ α} {f : α → Parser ρ β} {E E' : List Token → Prop}

theorem mono (h : Stops m p E) (himp : ∀ vs, E vs → E' vs) : Stops m p E' := by
  intro s e u hends hm hrun
  obtain ⟨ts, hts, hE⟩ := h hends hm hrun
  exact ⟨ts, hts, himp _ hE⟩

/-- What does not move stops where it starts. -/
theorem stays (hstays : Stays p) (hE : E []) : Stops m p E := by
  intro s e u _ _ hrun
  have hcursor := hstays.cursor_eq hrun
  exact ⟨[], .of_eq (congrArg Cursor.passed hcursor) (congrArg Cursor.rest hcursor), hE⟩

theorem pure (a : α) : Stops m (Pure.pure a : Parser ρ α) E := fun _ _ _ _ _ hrun => nomatch hrun

theorem build (f : ρ → α × ρ) : Stops m (build f) E := fun _ _ _ _ _ hrun => nomatch hrun

theorem build_pure (f : ρ → Unit × ρ) (a : α) : Stops m (do Parser.build f; return a) E :=
  fun _ _ _ _ _ hrun => nomatch hrun

/-- The first part stops, or the second after what the first has read. -/
theorem bind {L : α → List Token → Prop} (hp : Stops m p E) (hL : Reads m p L)
    (hf : ∀ a, Stops m (f a) fun vs => ∀ us, L a us → E (us ++ vs)) : Stops m (p >>= f) E := by
  intro s e u hends hm hrun
  rw [run_bind] at hrun
  rcases hp' : p.run s with ⟨e' | a, t⟩ <;> rw [hp'] at hrun
  · cases hrun
    exact hp hends hm hp'
  · obtain ⟨us, hus, ha⟩ := hL hends hm hp'
    obtain ⟨vs, hvs, hE⟩ :=
      hf a (hus.ends hends) ((onward_of_run hp').lineBreaks.trans hm) hrun
    exact ⟨us ++ vs, hus.trans hvs, by rw [visible_append]; exact hE _ ha⟩

/-- A step that does not move, before `f`. -/
theorem bind_stays (hstays : Stays p) (hE : E []) (hf : ∀ a, Stops m (f a) E) :
    Stops m (p >>= f) E :=
  bind (L := fun _ vs => vs = []) (stays hstays hE) (.stays hstays fun _ => rfl) fun a =>
    (hf a).mono fun vs hvs us hus => by rw [hus]; exact hvs

theorem failAt (t : Token) (fault : Fault) (hE : E []) : Stops m (failAt t fault : Parser ρ α) E :=
  stays (fun _ => rfl) hE

theorem unexpected (t : Token) (hE : E []) : Stops m (unexpected t : Parser ρ α) E :=
  failAt t _ hE

theorem take (b : Bool) : Stops m (take b : Parser ρ Token) E := fun _ _ _ _ _ hrun => nomatch hrun

/-- At the end of the file there is no token to read. -/
theorem next : Stops m (next : Parser ρ Token) fun vs =>
    vs.length ≤ 1 ∧ ∀ t ∈ vs, t.isSymbol .leftBrace = false := by
  refine bind (take true) (.take true) fun t => ?_
  unfold unlessEnd
  split
  · rename_i heof
    have hkind : t.kind = .endOfFile := by simpa [Token.isEndOfFile] using heof
    refine failAt t _ ?_
    rintro us (⟨-, hus⟩ | ⟨rfl, -⟩)
    · rw [hus rfl]
      simp [Token.isSymbol, hkind]
    · simp
  · exact pure t

/-- A token that is no name has been read in the place of the name, or none. -/
theorem declaredName : Stops m (declaredName : Parser ρ Token) fun vs => vs.length ≤ 1 := by
  refine bind (next.mono fun _ h => h.1) .next fun t => ?_
  split
  · exact pure t
  · refine failAt t _ ?_
    rintro us ⟨-, rfl⟩
    simp

/-- A token that is no `{` has been read in the place of the `{`, or none. -/
theorem expect_leftBrace : Stops m (expect .leftBrace : Parser ρ Unit) fun vs =>
    ∀ t ∈ vs, t.isSymbol .leftBrace = false := by
  refine bind (next.mono fun _ h => h.2) .next fun t => ?_
  split
  · exact pure ()
  · rename_i hnot
    refine unexpected t ?_
    rintro us ⟨-, rfl⟩
    simpa using hnot

end Stops

/-! ## The header of a declaration -/

/-- The tokens `vs` after a keyword hold the header of a declaration with this name, up to and with
the `{` that opens its block. -/
def Opened (kind : ResourceKind) (name : String) (vs : List Token) : Prop :=
  ∃ header rest, vs = header ++ rest ∧ Braces.Named kind name header

/-- No header stands at the start of the tokens `vs`. -/
def Unopened (kind : ResourceKind) (vs : List Token) : Prop := ∀ name, ¬ Opened kind name vs

theorem Opened.name_unique {kind : ResourceKind} {name name' : String} {vs : List Token}
    (h : Opened kind name vs) (h' : Opened kind name' vs) : name = name' := by
  obtain ⟨_, rest, rfl, n, words, opening, rfl, -, rfl, -⟩ := h
  obtain ⟨_, rest', heq, n', words', opening', rfl, -, rfl, -⟩ := h'
  simp only [List.cons_append, List.cons.injEq] at heq
  rw [heq.1]

/-- The place of the `{` in a header, where it stands at the earliest. -/
def leastPlace : ResourceKind → Nat
  | .textureLayer => 2
  | _ => 1

/-- Where no `{` stands after the words before that place, no header stands. -/
theorem unopened_append {kind : ResourceKind} {us vs : List Token}
    (hus : us.length ≤ leastPlace kind) (hvs : ∀ t ∈ vs, t.isSymbol .leftBrace = false) :
    Unopened kind (us ++ vs) := by
  rintro name ⟨_, rest, heq, n, words, opening, rfl, -, -, hwords, hopen⟩
  have hplace : leastPlace kind ≤ (n :: words).length := by
    cases kind with
    | textureLayer =>
      obtain ⟨t, -, rfl⟩ := hwords
      exact Nat.le_refl 2
    | _ => simp [leastPlace]
  have hdrop := congrArg (List.drop us.length) heq
  rw [List.drop_left, List.append_assoc,
    List.drop_append_of_le_length (Nat.le_trans hus hplace)] at hdrop
  have hnot := hvs opening (by simp [hdrop])
  rw [hopen] at hnot
  cases hnot

theorem unopened_of_length_le {kind : ResourceKind} {vs : List Token}
    (h : vs.length ≤ leastPlace kind) : Unopened kind vs := by
  rw [← List.append_nil vs]
  exact unopened_append h (by simp)

section Headers

variable {σ : Type}

theorem newName_stops (kind : ResourceKind) :
    Stops m (newName (σ := σ) kind) fun vs => vs.length ≤ 1 := by
  refine .bind .declaredName declaredName_reads fun t =>
    .bind_stays (refuseDuplicate_stays kind t) ?_ fun _ => .pure _
  rintro us ⟨-, rfl⟩
  simp

/-- The `{` is missing after words that leave room for it. -/
theorem brace_stops {kind : ResourceKind} {L : List Token → Prop}
    (hL : ∀ us, L us → us.length ≤ leastPlace kind) :
    Stops m (expect .leftBrace : Parser ρ Unit) fun vs => ∀ us, L us → Unopened kind (us ++ vs) :=
  Stops.expect_leftBrace.mono fun _ hvs us hus => unopened_append (hL us hus) hvs

theorem layerKind_stops : Stops m (layerKind (σ := σ)) fun vs => vs.length ≤ 1 := by
  refine .bind (Stops.next.mono fun _ h => h.1) .next fun t => ?_
  have hone : ∀ us, t.isEndOfFile = false ∧ us = [t] → (us ++ []).length ≤ 1 := by
    rintro us ⟨-, rfl⟩
    simp
  split
  · split
    · exact .pure _
    · exact .failAt t _ hone
  · exact .unexpected t hone

theorem inputLayout_stops : Stops m (inputLayout (σ := σ)) fun vs =>
    ∀ t ∈ vs, t.isSymbol .leftBrace = false := by
  refine .bind (Stops.next.mono fun _ h => h.2) .next fun t => ?_
  split
  · exact .pure _
  · rename_i hkind
    refine .bind_stays (fun _ => rfl) ?_ fun layout => .bind_stays (.noteIf _ _) ?_ fun _ => ?_
    · rintro us ⟨-, rfl⟩
      simp [Token.isSymbol, hkind]
    · rintro us ⟨-, rfl⟩
      simp [Token.isSymbol, hkind]
    · refine .bind (Stops.expect_leftBrace.mono ?_) (.expect _) fun _ => .pure _
      rintro vs hvs us ⟨-, rfl⟩
      simpa [Token.isSymbol, hkind] using hvs
  · rename_i hnot _
    refine .unexpected t ?_
    rintro us ⟨-, rfl⟩
    simpa [Token.isSymbol] using hnot

variable [RenderSystem σ]

theorem materialHeader_stops : Stops m (materialHeader (σ := σ)) (Unopened .material) := by
  refine .bind ((newName_stops _).mono fun vs h => unopened_of_length_le h) (newName_reads _)
    fun name => .bind (brace_stops ?_) (.expect _) fun _ => .build_pure _ _
  rintro us ⟨t, -, -, rfl⟩
  exact Nat.le_refl 1

theorem vertexFormatHeader_stops :
    Stops m (vertexFormatHeader (σ := σ)) (Unopened .vertexFormat) := by
  refine .bind (Stops.declaredName.mono fun vs h => unopened_of_length_le h) declaredName_reads
    fun name => .bind_stays (.failIf _ _ _) ?_ fun _ =>
    .bind_stays (refuseDuplicate_stays _ name) ?_ fun _ =>
    .bind (brace_stops ?_) (.expect _) fun _ => .build_pure _ _
  all_goals rintro us ⟨-, rfl⟩
  · exact unopened_of_length_le (Nat.le_refl 1)
  · exact unopened_of_length_le (Nat.le_refl 1)
  · exact Nat.le_refl 1

theorem textureLayerHeader_stops :
    Stops m (textureLayerHeader (σ := σ)) (Unopened .textureLayer) := by
  refine .bind ((newName_stops _).mono fun vs h => unopened_of_length_le (Nat.le_succ_of_le h))
    (newName_reads _) fun name => .bind (layerKind_stops.mono ?_) layerKind_reads fun kind =>
    .bind (Stops.expect_leftBrace.mono ?_) (.expect _) fun _ => .build_pure _ _
  · rintro vs hvs us ⟨t, -, -, rfl⟩
    exact unopened_of_length_le (by simp [leastPlace]; omega)
  · rintro vs hvs ws ⟨t, -, rfl⟩ us ⟨n, -, -, rfl⟩
    exact @unopened_append .textureLayer [n, t] vs (Nat.le_refl 2) hvs

/-- The header of a shader with its name, where shaders are supported. -/
def supportedShaderHeader : Parser (Scene σ) String := do
  let name ← declaredName
  shaderHeader name
  return name.text

theorem supportedShaderHeader_reads :
    Reads m (supportedShaderHeader (σ := σ)) fun name vs => Braces.Named .shader name vs := by
  refine .bind declaredName_reads fun n => .bind (shaderHeader_reads n) fun _ => .pure ?_
  rintro us hus ws ⟨hkind, rfl⟩
  simpa using hus hkind

theorem supportedShaderHeader_stops :
    Stops m (supportedShaderHeader (σ := σ)) (Unopened .shader) := by
  have hone : ∀ {n : Token} us, n.kind = .string ∧ us = [n] → us.length ≤ leastPlace .shader := by
    rintro n us ⟨-, rfl⟩
    exact Nat.le_refl 1
  refine .bind (Stops.declaredName.mono fun vs h => unopened_of_length_le h) declaredName_reads
    fun n => .bind ?_ (shaderHeader_reads n) fun _ => .pure _
  refine .bind_stays (refuseDuplicate_stays _ n) (fun us hus => ?_) fun _ =>
    .bind (inputLayout_stops.mono ?_) inputLayout_reads fun _ => .build _
  · rw [List.append_nil]
    exact unopened_of_length_le (hone us hus)
  · exact fun vs hvs us hus => unopened_append (hone us hus) hvs

theorem supportedShaderHeader_commits :
    Commits (supportedShaderHeader (σ := σ)) fun r name r' =>
      name ∉ r.names .shader ∧ ∃ layout, r' = r.addShader name layout :=
  .bind_looks declaredName_composed fun n => .bind_pure (shaderHeader_commits n)

theorem shader_run {s : State (Scene σ)} (h : RenderSystem.supportsShaders s.scene.system) :
    shader.run s = (supportedShaderHeader >>= fun _ => blockBody dialectBlock ()).run s := by
  rw [shader, supportedShaderHeader, run_bind, run_bind, run_bind]
  rcases hname : declaredName.run s with ⟨e | n, t⟩
  · rfl
  · have hscene := scene_eq_of_run declaredName_composed hname
    rw [← hscene] at h
    simp only
    rw [run_bind]
    simp only [inspect, build, h, Bool.not_true, Bool.false_eq_true, if_false]
    rw [run_bind, run_bind]
    rcases (shaderHeader n).run t with ⟨e | _, u⟩ <;> rfl

end Headers

/-! ## Whole declarations -/

section Declarations

variable {σ : Type} [RenderSystem σ] {s u : State (Scene σ)} {e : ScriptError}

/-- What a declaration of a kind that fails between two states leaves behind: nothing, or the entry
it has added once its header was read. -/
structure Leaves (kind : ResourceKind) (s u : State (Scene σ)) (vs : List Token) : Prop where
  unopened : Unopened kind vs → u.scene.toResources = s.scene.toResources
  opened : ∀ name, Opened kind name vs →
    name ∉ s.scene.names kind ∧ s.scene.Appends kind name u.scene.toResources

/-- A header that adds the entry, and lines that change it. -/
theorem headed_fails {kind : ResourceKind} {p : Parser (Scene σ) String}
    {q : String → Parser (Scene σ) Unit}
    (hreads : Reads m p fun name vs => Braces.Named kind name vs)
    (hstops : Stops m p (Unopened kind))
    (hcommits : Commits p fun r name r' =>
      name ∉ r.names kind ∧ r.Appends kind name r'.toResources)
    (hlines : ∀ name, Composed (LineChange kind) True (q name))
    (hends : Ends s.cursor.tokens) (hm : s.cursor.lineBreaksCount = m)
    (h : (p >>= q).run s = (.error e, u)) :
    ∃ ts, s.cursor.Passes ts u.cursor ∧ Leaves kind s u (visible m ts) := by
  rw [run_bind] at h
  rcases hheader : p.run s with ⟨e' | name, t⟩ <;> rw [hheader] at h
  · cases h
    obtain ⟨ts, hts, hnot⟩ := hstops hends hm hheader
    have hscene := hcommits.failed hheader
    exact ⟨ts, hts, fun _ => by rw [hscene], fun name hname => absurd hname (hnot name)⟩
  · obtain ⟨ts, hts, hnamed⟩ := hreads hends hm hheader
    obtain ⟨hnew, hadds⟩ := hcommits.ok hheader
    obtain ⟨us, hus⟩ := (onward_of_run h).leads
    have happends : s.scene.Appends kind name u.scene.toResources :=
      (hlines name).keeps_of_run (fun r => s.scene.Appends kind name r.toResources)
        (fun _ _ _ hf => lineChange_appends hf) h hadds
    have hopened : Opened kind name (visible m (ts ++ us)) :=
      ⟨visible m ts, visible m us, visible_append .., hnamed⟩
    refine ⟨ts ++ us, hts.trans hus, fun hnot => absurd hopened (hnot name), fun name' hname' => ?_⟩
    rw [hname'.name_unique hopened]
    exact ⟨hnew, happends⟩

/-- A texture is added when nothing can fail any more. -/
theorem texture_fails (h : texture.run s = (.error e, u)) :
    u.scene.toResources = s.scene.toResources := by
  rw [texture, run_bind] at h
  rcases hheader : textureHeader.run s with ⟨e' | name, t⟩ <;> rw [hheader] at h
  · cases h
    rw [textureHeader_commits.failed hheader]
  · have hstart : t.scene.toResources = s.scene.toResources := by
      rw [(textureHeader_commits.ok hheader).2]
      rfl
    have hlines : ((blockBody textureLine ()).run t).2.scene.toResources = t.scene.toResources :=
      textureLines_resources (lines_composed textureLine_composed _ ()) t
    simp only at h
    rw [run_bind] at h
    rcases hbody : (blockBody textureLine ()).run t with ⟨e' | _, v⟩ <;> rw [hbody] at h hlines
    · cases h
      exact hlines.trans hstart
    · simp only [finishTexture_run] at h
      obtain ⟨hanswer, rfl⟩ := Prod.mk.inj h
      refine Eq.trans (Scene.addTexture_failed (s := v.scene.startTexture) ?_)
        (hlines.trans hstart)
      by_contra hmade
      rw [Bool.not_eq_false] at hmade
      rw [if_pos hmade] at hanswer
      cases hanswer

/-- **A declaration that fails leaves nothing behind, or the one entry it names.** In every load,
from every state in which the keyword of a declaration has just been read: if the declaration fails
before its header is complete up to the `{`, or is a texture, all resources are as before. Else one
entry has been added at the end of the catalog of its kind, under the name in its header, where the
name was not; all other entries and the other catalogs are as before. -/
theorem declaration_fails {l : Loader σ} {files : Files} {tokens : List Token}
    (honward : (l.start files tokens).Onward s) {kind : ResourceKind}
    (hkeyword : s.cursor.current.text = kind.keyword)
    (hshader : kind = .shader → RenderSystem.supportsShaders s.scene.system)
    (h : (declaration () s.cursor.current).run s = (.error e, u)) :
    ∃ ts, s.cursor.Passes ts u.cursor ∧
      (kind = .texture ∨ Unopened kind (visible false ts) →
        u.scene.toResources = s.scene.toResources) ∧
      (kind ≠ .texture → ∀ name, Opened kind name (visible false ts) →
        name ∉ s.scene.names kind ∧ s.scene.Appends kind name u.scene.toResources) := by
  have hends : Ends s.cursor.tokens := honward.ends (Cursor.ends_ofTokens tokens)
  have hbreaks : s.cursor.lineBreaksCount = false := honward.lineBreaks
  have leaves : ∀ {kind : ResourceKind}, kind ≠ .texture →
      (∃ ts, s.cursor.Passes ts u.cursor ∧ Leaves kind s u (visible false ts)) →
      ∃ ts, s.cursor.Passes ts u.cursor ∧
        (kind = .texture ∨ Unopened kind (visible false ts) →
          u.scene.toResources = s.scene.toResources) ∧
        (kind ≠ .texture → ∀ name, Opened kind name (visible false ts) →
          name ∉ s.scene.names kind ∧ s.scene.Appends kind name u.scene.toResources) := by
    rintro kind hkind ⟨ts, hts, hleaves⟩
    exact ⟨ts, hts, fun h => hleaves.unopened (h.resolve_left hkind), fun _ => hleaves.opened⟩
  unfold declaration at h
  rw [hkeyword] at h
  cases kind with
  | material =>
    refine leaves (nofun) (headed_fails materialHeader_reads materialHeader_stops
      (materialHeader_commits.mono ?_) (fun _ => lines_composed materialLine_composed _ ())
      hends hbreaks h)
    rintro r name _ ⟨hnew, rfl⟩
    exact ⟨hnew, Scene.addMaterial_appends hnew⟩
  | shader =>
    have h : shader.run s = (.error e, u) := h
    rw [shader_run (hshader rfl)] at h
    refine leaves (nofun) (headed_fails supportedShaderHeader_reads supportedShaderHeader_stops
      (supportedShaderHeader_commits.mono ?_) (fun _ => lines_composed dialectBlock_composed _ ())
      hends hbreaks h)
    rintro r name _ ⟨hnew, layout, rfl⟩
    exact ⟨hnew, Scene.addShader_appends hnew layout⟩
  | vertexFormat =>
    refine leaves (nofun) (headed_fails vertexFormatHeader_reads vertexFormatHeader_stops
      (vertexFormatHeader_commits.mono ?_) (fun _ => lines_composed attributeBlock_composed _ ())
      hends hbreaks h)
    rintro r name _ ⟨-, hnew, rfl⟩
    exact ⟨hnew, Scene.addVertexFormat_appends hnew⟩
  | texture =>
    obtain ⟨ts, hts⟩ := (onward_of_run h).leads
    exact ⟨ts, hts, fun _ => texture_fails h, fun hnot => absurd rfl hnot⟩
  | textureLayer =>
    refine leaves (nofun) (headed_fails textureLayerHeader_reads textureLayerHeader_stops
      (textureLayerHeader_commits.mono ?_) (fun _ => lines_composed layerLine_composed _ ())
      hends hbreaks h)
    rintro r name _ ⟨hnew, layout, rfl⟩
    exact ⟨hnew, Scene.addTextureLayer_appends hnew layout⟩

end Declarations

/-- A material with a line it does not know. -/
theorem declaration_fails_unknown_line :
    let name (text : String) : Token := ⟨.name, text, .start⟩
    let string (text : String) : Token := ⟨.string, text, .start⟩
    let symbol (s : Symbol) : Token := .bare (.symbol s) .start
    let tokens := [name "material", string "stone", symbol .leftBrace, name "gleam",
      symbol .rightBrace, .bare .endOfFile .start]
    let start := (Loader.new Recorder.default "/").start (fun _ => .error .notFound) tokens
    let s := start.advance true
    ∃ e u, (declaration () s.cursor.current).run s = (.error e, u) ∧
      "stone" ∉ s.scene.names .material ∧
      s.scene.Appends .material "stone" u.scene.toResources := by
  intro name string symbol tokens start s
  let u := ((declaration () s.cursor.current).run s).2
  let fault : Fault := .unexpectedIdentifier "gleam"
  have hanswer : ((declaration () s.cursor.current).run s).1 = .error (.placed .start fault) := by
    decide +kernel
  have hpassed : u.cursor.passed = [name "gleam", symbol .leftBrace, string "stone"] ++
      s.cursor.passed := by decide +kernel
  have hrun : (declaration () s.cursor.current).run s = (.error (.placed .start fault), u) :=
    Prod.ext hanswer rfl
  have hkeyword : s.cursor.current.text = ResourceKind.material.keyword := rfl
  obtain ⟨ts, hts, -, hopened⟩ :=
    declaration_fails (start.advance_onward true) hkeyword nofun hrun
  obtain rfl : ts = [string "stone", symbol .leftBrace, name "gleam"] :=
    List.reverse_injective (List.append_cancel_right (hts.passed.symm.trans hpassed))
  exact ⟨_, u, hrun, hopened nofun "stone"
    ⟨[string "stone", symbol .leftBrace], [name "gleam"], rfl,
      string "stone", [], symbol .leftBrace, rfl, rfl, rfl, rfl, rfl⟩⟩

end Parser

end MaterialScript
