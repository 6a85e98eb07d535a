/-
What a recording render system has made is in the catalogs.

A resource is made where it is added, under a name that has been looked up
before, and lines make nothing. So after every load, whether it succeeds or
fails, a recorder has made as many resources of each kind as the catalogs hold,
and the images it has been asked for are those of the textures in the catalog;
one more image is asked for just where a load ends because it cannot be loaded
(`readTokens_registers`).
-/
import MaterialScript.Loader
import MaterialScript.Proofs.Blame
import MaterialScript.Proofs.Growth
import MaterialScript.RenderSystem.Recorder

namespace MaterialScript

/-- The image that could not be loaded, where that is what went wrong. -/
def ScriptError.unloaded (e : ScriptError) : List String :=
  match e.fault with
  | .textureLoad path => [path]
  | _ => []

/-- The image an answer tells of that could not be loaded. -/
def unloaded {α : Type} : Except ScriptError α → List String
  | .ok _ => []
  | .error e => e.unloaded

theorem Blamed.unloaded {t : Token} {fault : Fault} (h : Blamed t fault) :
    (ScriptError.placed t.position fault).unloaded = [] := by
  cases h <;> rfl

/-- The images the textures of a catalog were loaded from, in the order of the textures. -/
def Resources.images (q : Resources) : List String := q.textures.entries.filterMap (·.2.source)

/-- Since it was in the state `r`, a recorder has made these resources, and it has been asked for
the images of the textures among them and then for those of `failed`. -/
structure Recorder.Registers (r : Recorder) (q : Resources) (failed : List String) (r' : Recorder) :
    Prop where
  materials : r'.materials = r.materials + q.materials.size
  vertexFormats : r'.vertexFormats = r.vertexFormats + q.vertexFormats.size
  textureLayers : r'.textureLayers = r.textureLayers + q.textureLayers.size
  shaders : r'.shaders = r.shaders + q.shaders.size
  requests : r'.requests = r.requests ++ q.images ++ failed

namespace TextureDraft

theorem source_finish (d : TextureDraft) (t : Texture) : (d.finish t).source = t.source := by
  unfold finish
  split <;> split <;> rfl

theorem source_fill (d : TextureDraft) (t : Texture) : (d.fill t).source = t.source := by
  unfold fill
  split
  · rfl
  · split <;> rfl

theorem source_setUp (d : TextureDraft) (t : Texture) : (d.setUp t).source = t.source := by
  simp only [setUp]
  split <;> split <;> rfl

/-- Making a texture asks for its image, if it has one. -/
theorem make?_recorder (d : TextureDraft) (r : Recorder) :
    ∃ paths, (d.make? r).2 = { r with requests := r.requests ++ paths } ∧
      (∀ t, (d.make? r).1 = some t → paths = t.source.toList) ∧
      ((d.make? r).1 = none → paths = [d.settings.fileName]) := by
  unfold make?
  split
  · refine ⟨[], by simp [RenderSystem.createTexture], ?_, nofun⟩
    rintro t ⟨rfl⟩
    rw [source_finish, source_fill]
    rfl
  · refine ⟨[d.settings.fileName], rfl, ?_, fun _ => rfl⟩
    intro t ht
    simp only [RenderSystem.loadTexture, Option.map_eq_some_iff] at ht
    obtain ⟨t', hload, rfl⟩ := ht
    split at hload
    · cases hload
    · cases hload
      rw [source_finish, source_setUp]
      rfl

end TextureDraft

/-- Lines make nothing and ask for no image; they compile shaders. -/
theorem lineChange_recorder {kind : ResourceKind} {α : Type}
    {f : Scene Recorder → α × Scene Recorder} (hf : LineChange kind α f) (s : Scene Recorder) :
    (∃ compiled, (f s).2.system = { s.system with compiled }) ∧ (f s).2.images = s.images := by
  cases hf
  case compileStage stage =>
    simp only [Scene.compileStage, Scene.compileWith, RenderSystem.compileStage]
    split
    · exact ⟨⟨_, rfl⟩, rfl⟩
    · split
      · exact ⟨⟨_, rfl⟩, rfl⟩
      · exact ⟨⟨_, rfl⟩, rfl⟩
  case compileShader =>
    simp only [Scene.compileShader, Scene.compileWith, RenderSystem.compileShader]
    split
    · exact ⟨⟨_, rfl⟩, rfl⟩
    · split
      · exact ⟨⟨_, rfl⟩, rfl⟩
      · exact ⟨⟨_, rfl⟩, rfl⟩
  all_goals exact ⟨⟨_, rfl⟩, rfl⟩

namespace Recorder.Registers

variable {r : Recorder} {s : Scene Recorder} {name : String} {failed : List String}

theorem line {kind : ResourceKind} {α : Type} {f : Scene Recorder → α × Scene Recorder}
    (hf : LineChange kind α f) (h : r.Registers s.toResources failed s.system) :
    r.Registers (f s).2.toResources failed (f s).2.system := by
  obtain ⟨⟨compiled, hsystem⟩, himages⟩ := lineChange_recorder hf s
  have hcount := lineChange_count hf s
  rw [hsystem]
  exact
    { materials := h.materials.trans (congrArg (_ + ·) (hcount .material).symm)
      vertexFormats := h.vertexFormats.trans (congrArg (_ + ·) (hcount .vertexFormat).symm)
      textureLayers := h.textureLayers.trans (congrArg (_ + ·) (hcount .textureLayer).symm)
      shaders := h.shaders.trans (congrArg (_ + ·) (hcount .shader).symm)
      requests := by rw [himages]; exact h.requests }

theorem addMaterial (h : r.Registers s.toResources failed s.system)
    (hnew : name ∉ s.names .material) :
    r.Registers (s.addMaterial name).toResources failed (s.addMaterial name).system :=
  { h with
    materials := by
      change s.system.materials + 1 = r.materials + (s.materials.insert name _).size
      rw [Catalog.insert_of_not_mem hnew, Catalog.size_push, h.materials, Nat.add_assoc] }

theorem addVertexFormat (h : r.Registers s.toResources failed s.system)
    (hnew : name ∉ s.names .vertexFormat) :
    r.Registers (s.addVertexFormat name).toResources failed (s.addVertexFormat name).system :=
  { h with
    vertexFormats := by
      change s.system.vertexFormats + 1 = r.vertexFormats + (s.vertexFormats.insert name _).size
      rw [Catalog.insert_of_not_mem hnew, Catalog.size_push, h.vertexFormats, Nat.add_assoc] }

theorem addTextureLayer (h : r.Registers s.toResources failed s.system)
    (hnew : name ∉ s.names .textureLayer) (kind : LayerKind) :
    r.Registers (s.addTextureLayer name kind).toResources failed
      (s.addTextureLayer name kind).system :=
  { h with
    textureLayers := by
      change s.system.textureLayers + 1 = r.textureLayers + (s.textureLayers.insert name _).size
      rw [Catalog.insert_of_not_mem hnew, Catalog.size_push, h.textureLayers, Nat.add_assoc] }

theorem addShader (h : r.Registers s.toResources failed s.system)
    (hnew : name ∉ s.names .shader) (layout : Option InputLayout) :
    r.Registers (s.addShader name layout).toResources failed (s.addShader name layout).system :=
  { h with
    shaders := by
      change s.system.shaders + 1 = r.shaders + (s.shaders.insert name _).size
      rw [Catalog.insert_of_not_mem hnew, Catalog.size_push, h.shaders, Nat.add_assoc] }

theorem addTexture (h : r.Registers s.toResources [] s.system) (hnew : name ∉ s.names .texture)
    (d : TextureDraft) :
    r.Registers (s.addTexture name d).2.toResources
      (if (s.addTexture name d).1 then [] else [d.settings.fileName])
      (s.addTexture name d).2.system := by
  obtain ⟨paths, hsystem, hmade, hfailed⟩ := d.make?_recorder s.system
  have hrequests : s.system.requests = r.requests ++ s.images := by simpa using h.requests
  unfold Scene.addTexture
  rcases hrun : d.make? s.system with ⟨t?, system⟩
  rw [hrun] at hsystem hmade hfailed
  obtain rfl : system = _ := hsystem
  cases t? with
  | some t =>
    have himages : ({ s with textures := s.textures.push name t } : Scene Recorder).images =
        s.images ++ paths := by
      rw [hmade t rfl]
      cases hsource : t.source <;> simp [Catalog.push, Resources.images, hsource]
    simp only [Catalog.insert_of_not_mem hnew, if_true]
    exact
      { h with
        requests := by
          rw [himages, List.append_nil, ← List.append_assoc, ← hrequests] }
  | none =>
    simp only [Bool.false_eq_true, if_false]
    exact
      { h with
        requests := by
          change s.system.requests ++ paths = r.requests ++ s.images ++ _
          rw [hrequests, hfailed rfl] }

end Recorder.Registers

namespace Parser

variable {α β : Type} {r : Recorder} {known : List Token}

/-- Where `r` has recorded what was built so far, it has done so after `p`, too, whatever `p`
answers. -/
def Records (r : Recorder) (known : List Token) (p : Parser (Scene Recorder) α) : Prop :=
  ∀ ⦃s : State (Scene Recorder)⦄ ⦃answer : Except ScriptError α⦄ ⦃u : State (Scene Recorder)⦄,
    s.Knows known → r.Registers s.scene.toResources [] s.scene.system → p.run s = (answer, u) →
    r.Registers u.scene.toResources (unloaded answer) u.scene.system

/-- A token is blamed, not an image. -/
theorem Faults.unloaded_eq {ρ : Type} {p : Parser ρ α} (hp : Faults Blamed known p) {s u : State ρ}
    {answer : Except ScriptError α} (hknows : s.Knows known) (hrun : p.run s = (answer, u)) :
    unloaded answer = [] := by
  cases answer with
  | ok a => rfl
  | error e =>
    obtain ⟨t, -, fault, hblamed, rfl⟩ := hp hknows hrun
    exact hblamed.unloaded

namespace Records

variable {p : Parser (Scene Recorder) α} {f : α → Parser (Scene Recorder) β}

theorem of_composed {may : ∀ α : Type, (Scene Recorder → α × Scene Recorder) → Prop}
    (hp : Composed may True p) (hfaults : Faults Blamed known p)
    (hmay : ∀ α f s, may α f → r.Registers s.toResources [] s.system →
      r.Registers (f s).2.toResources [] (f s).2.system) : Records r known p := by
  intro s answer u hknows hs hrun
  rw [hfaults.unloaded_eq hknows hrun]
  exact hp.keeps_of_run (fun s => r.Registers s.toResources [] s.system) hmay hrun hs

theorem of_lines {kind : ResourceKind} (hp : Composed (LineChange kind) True p)
    (hfaults : Faults Blamed known p) : Records r known p :=
  of_composed hp hfaults fun _ _ _ hf h => h.line hf

theorem of_looksOnly (hp : Composed LooksOnly True p) (hfaults : Faults Blamed known p) :
    Records r known p :=
  of_composed hp hfaults fun _ _ s hf h => by rwa [hf s]

/-- A header makes and adds a resource, or changes nothing. -/
theorem of_commits {A : Scene Recorder → α → Scene Recorder → Prop} (hp : Commits p A)
    (hfaults : Faults Blamed known p)
    (hA : ∀ s a s', A s a s' → r.Registers s.toResources [] s.system →
      r.Registers s'.toResources [] s'.system) : Records r known p := by
  intro s answer u hknows hs hrun
  rw [hfaults.unloaded_eq hknows hrun]
  cases answer with
  | ok a => exact hA _ _ _ (hp.ok hrun) hs
  | error e =>
    rw [hp.failed hrun]
    exact hs

theorem bind (hp : Records r known p) (hf : ∀ a, Records r [] (f a)) :
    Records r known (p >>= f) := by
  intro s answer u hknows hs hrun
  rw [run_bind] at hrun
  rcases hp' : p.run s with ⟨e | a, v⟩ <;> rw [hp'] at hrun
  · cases hrun
    exact hp hknows hs hp'
  · exact hf a (hknows.onward (onward_of_run hp')) (hp hknows hs hp') hrun

/-- A part that does not move leaves what is known to the next one. -/
theorem bind_stays (hstays : Stays p) (hp : Records r known p) (hf : ∀ a, Records r known (f a)) :
    Records r known (p >>= f) := by
  intro s answer u hknows hs hrun
  rw [run_bind] at hrun
  rcases hp' : p.run s with ⟨e | a, v⟩ <;> rw [hp'] at hrun
  · cases hrun
    exact hp hknows hs hp'
  · exact hf a (hknows.stays (hstays.cursor_eq hp')) (hp hknows hs hp') hrun

/-- What follows the token read last may find fault with it. -/
theorem bind_token {p : Parser (Scene Recorder) Token} {f : Token → Parser (Scene Recorder) β}
    (hp : Records r known p) (hends : EndsOn p fun t c => c = t)
    (hf : ∀ t, Records r [t] (f t)) : Records r known (p >>= f) := by
  intro s answer u hknows hs hrun
  rw [run_bind] at hrun
  rcases hp' : p.run s with ⟨e | t, v⟩ <;> rw [hp'] at hrun
  · cases hrun
    exact hp hknows hs hp'
  · have hread := (hknows.onward (onward_of_run hp')).singleton (hends hp').symm
    exact hf t hread (hp hknows hs hp') hrun

/-- A loop needs not have begun to read. -/
theorem runOverTokens {body : α → Token → Parser (Scene Recorder) (Progress α β)}
    {finish : α → Token → Parser (Scene Recorder) β}
    (hbody : ∀ a t, Records r [t] (body a t)) (hfinish : ∀ a t, Records r [t] (finish a t)) (a : α)
    {s u : State (Scene Recorder)} {answer : Except ScriptError β} (hends : Ends s.cursor.tokens)
    (hs : r.Registers s.scene.toResources [] s.scene.system)
    (hrun : runOverTokens body finish a s = (answer, u)) :
    r.Registers u.scene.toResources (unloaded answer) u.scene.system := by
  induction a, s using loop_induction body with
  | atEnd a s hend =>
    rw [runOverTokens_atEnd hend] at hrun
    exact hfinish a _ (State.knows_advance hends true) hs hrun
  | more a s a' v hend hround ih =>
    rw [runOverTokens_more hend hround] at hrun
    have honward := (s.advance_onward true).trans (onward_of_run hround)
    have hround := hbody a _ (State.knows_advance hends true) hs hround
    exact ih (honward.ends hends) hround hrun
  | done a s b v hend hround =>
    rw [runOverTokens_done hend hround] at hrun
    cases hrun
    exact hbody a _ (State.knows_advance hends true) hs hround
  | error a s e v hend hround =>
    rw [runOverTokens_error hend hround] at hrun
    cases hrun
    exact hbody a _ (State.knows_advance hends true) hs hround

end Records

/-! ## Declarations -/

theorem shader_records : Records r known (shader (σ := Recorder)) := by
  refine .bind_token (.of_looksOnly declaredName_composed declaredName_faults)
    .declaredName fun name => .bind_stays (fun _ => rfl)
    (.of_looksOnly (.build fun _ => rfl) (.inspect _)) fun supported => ?_
  split
  · exact .of_looksOnly (.bind (.note _) fun _ => skipBlock_composed)
      (.bind (.note _) fun _ => skipBlock_faults)
  · refine .bind (.of_commits (shaderHeader_commits name)
      (shaderHeader_faults (List.mem_cons_self ..)) ?_) fun _ =>
      .of_lines (lines_composed dialectBlock_composed _ ())
        (blockBody_faults dialectBlock_faults ())
    rintro s _ _ ⟨hnew, layout, rfl⟩ h
    exact h.addShader hnew layout

theorem finishTexture_records {name : String} {s u : State (Scene Recorder)}
    {answer : Except ScriptError Unit} (hs : r.Registers s.scene.toResources [] s.scene.system)
    (hnew : name ∉ s.scene.names .texture) (hrun : (finishTexture name).run s = (answer, u)) :
    r.Registers u.scene.toResources (unloaded answer) u.scene.system := by
  have hmade : r.Registers s.scene.startTexture.toResources [] s.scene.startTexture.system := hs
  have hadd := hmade.addTexture hnew s.scene.drafts.texture
  rw [finishTexture_run] at hrun
  obtain ⟨rfl, rfl⟩ := Prod.mk.inj hrun
  split at hadd
  · rename_i hloaded
    rw [if_pos hloaded]
    exact hadd
  · rename_i hnot
    rw [if_neg hnot]
    exact hadd

theorem texture_records : Records r known (texture (σ := Recorder)) := by
  intro s answer u hknows hs hrun
  rw [texture, run_bind] at hrun
  rcases hheader : textureHeader.run s with ⟨e | name, t⟩ <;> rw [hheader] at hrun
  · cases hrun
    have hnone : e.unloaded = [] := textureHeader_faults.unloaded_eq hknows hheader
    rw [textureHeader_commits.failed hheader]
    change r.Registers _ e.unloaded _
    rw [hnone]
    exact hs
  · obtain ⟨hnew, hstart⟩ := textureHeader_commits.ok hheader
    have ht : r.Registers t.scene.toResources [] t.scene.system := by
      rw [hstart]
      exact hs
    have hlines :
        Composed (LineChange .texture) True (blockBody (textureLine (σ := Recorder)) ()) :=
      lines_composed textureLine_composed _ ()
    have hbody : Records r [] (blockBody (textureLine (σ := Recorder)) ()) :=
      .of_lines hlines (blockBody_faults textureLine_faults ())
    have hknows := hknows.onward (onward_of_run hheader)
    simp only at hrun
    rw [run_bind] at hrun
    rcases hblock : (blockBody textureLine ()).run t with ⟨e | _, v⟩ <;> rw [hblock] at hrun
    · cases hrun
      exact hbody hknows ht hblock
    · have hsame : v.scene.names .texture = s.scene.names .texture := by
        rw [names_eq_of_lines hlines hblock, hstart]
        rfl
      exact finishTexture_records (hbody hknows ht hblock) (by rw [hsame]; exact hnew) hrun

theorem declaration_records (b : Unit) (t : Token) :
    Records r [t] (declaration (σ := Recorder) b t) := by
  unfold declaration
  split
  · refine .bind (.of_commits materialHeader_commits materialHeader_faults ?_) fun _ =>
      .of_lines (lines_composed materialLine_composed _ ())
        (blockBody_faults materialLine_faults ())
    rintro s name _ ⟨hnew, rfl⟩ h
    exact h.addMaterial hnew
  · exact shader_records
  · refine .bind (.of_commits vertexFormatHeader_commits vertexFormatHeader_faults ?_) fun _ =>
      .of_lines (lines_composed attributeBlock_composed _ ())
        (blockBody_faults attributeBlock_faults ())
    rintro s name _ ⟨-, hnew, rfl⟩ h
    exact h.addVertexFormat hnew
  · exact texture_records
  · refine .bind (.of_commits textureLayerHeader_commits textureLayerHeader_faults ?_) fun _ =>
      .of_lines (lines_composed layerLine_composed _ ()) (blockBody_faults layerLine_faults ())
    rintro s name _ ⟨hnew, kind, rfl⟩ h
    exact h.addTextureLayer hnew kind
  · exact .of_looksOnly (unexpectedName_composed t) (unexpectedName_faults (List.mem_cons_self ..))

theorem line_records (b : Unit) (t : Token) :
    Records r [t] (line (declaration (σ := Recorder)) b t) := by
  unfold line
  split
  · exact .of_looksOnly (.bind variableDefinition_composed fun _ => .pure b)
      (.bind variableDefinition_faults fun _ => .pure b)
  · split
    · refine .of_looksOnly (.bind discardedBlock_composed fun _ => .pure b)
        (.bind (discardedBlock_faults (List.mem_cons_self ..) ?_) fun _ => .pure b)
      simp [Token.isName, *]
    · exact declaration_records b t
  · exact .of_looksOnly (unexpected_composed t) (unexpected_faults (List.mem_cons_self ..))

/-- **A script registers what is made for it**, whether it succeeds or fails. -/
theorem script_records {s u : State (Scene Recorder)} {answer : Except ScriptError Unit}
    (hends : Ends s.cursor.tokens) (hs : r.Registers s.scene.toResources [] s.scene.system)
    (hrun : script.run s = (answer, u)) :
    r.Registers u.scene.toResources (unloaded answer) u.scene.system := by
  refine Records.runOverTokens (fun b t => ?_) (fun b t => ?_) () hends hs hrun
  · unfold lineOrClose
    split
    · exact .of_looksOnly (.pure _) (.pure _)
    · exact .bind (line_records b t) fun _ => .of_looksOnly (.pure _) (.pure _)
  · unfold closeAtEnd
    split
    · exact .of_looksOnly (.pure _) (.pure _)
    · exact .of_looksOnly (unexpected_composed t) (unexpected_faults (List.mem_cons_self ..))

end Parser

/-! ## Loads -/

theorem Brackets.unloaded_checkAfter (stack : List (Token × Symbol)) (ts : List Token) :
    unloaded (checkAfter stack ts) = [] := by
  fun_induction checkAfter stack ts <;> first | rfl | assumption

/-- **What has been made is registered.** Every load of a token sequence, whether it succeeds or
fails, makes one material, vertex format, texture layer and shader for each that is in the catalogs
after it. The images it asks for are those of the textures in the catalog, in their order, and then
the one that could not be loaded, if that is why the load has failed. -/
theorem Loader.readTokens_registers (l : Loader Recorder) (files : Files) (tokens : List Token) :
    l.system.Registers (l.readTokens files tokens).2.resources
      (unloaded (l.readTokens files tokens).1) (l.readTokens files tokens).2.system := by
  have hbegin : l.system.Registers l.begin.resources [] l.begin.system :=
    ⟨rfl, rfl, rfl, rfl, by simp [begin, Resources.empty, Resources.images, Catalog.empty]⟩
  unfold readTokens readOn
  split
  · exact hbegin
  · split
    · rename_i e hcheck
      have hnone := Brackets.unloaded_checkAfter [] tokens
      rw [show Brackets.checkAfter [] tokens = .error e from hcheck] at hnone
      rw [hnone]
      exact hbegin
    · rcases hrun : Parser.script.run (l.begin.start files tokens) with ⟨answer, s⟩
      have hscript := Parser.script_records (Cursor.ends_ofTokens tokens) hbegin hrun
      unfold readFrom
      rw [hrun]
      cases answer with
      | ok _ => exact hscript
      | error e => exact hscript

end MaterialScript
