/-
What the lines of a texture set, and the texture that is made of that.

The draft a texture block leaves is the default one with the fields set that its own lines
name, those of its filter blocks among them. A recorder makes of it the texture that
`TextureDraft.described` tells, whatever else there is (`texture_given`).
-/
import MaterialScript.Proofs.Fields
import MaterialScript.RenderSystem.Recorder

namespace MaterialScript

namespace TextureFilter

/-- The fields of the filter of a texture. -/
inductive Field where
  | mipMaps | anisotropy | wrapX | wrapY | wrapZ | min | mag | mip
deriving DecidableEq

/-- The type of a field. -/
@[reducible] def Field.Value : Field → Type
  | mipMaps => Bool
  | anisotropy => UInt32
  | wrapX | wrapY | wrapZ => WrapMode
  | min | mag => SampleMode
  | mip => MipMapFilter

/-- The value of a field. -/
def get (t : TextureFilter) : (f : Field) → f.Value
  | .mipMaps => t.mipMaps
  | .anisotropy => t.anisotropy
  | .wrapX => t.wrapX
  | .wrapY => t.wrapY
  | .wrapZ => t.wrapZ
  | .min => t.min
  | .mag => t.mag
  | .mip => t.mip

/-- The filter with another value in one field. -/
def set (t : TextureFilter) : (f : Field) → f.Value → TextureFilter
  | .mipMaps, v => { t with mipMaps := v }
  | .anisotropy, v => { t with anisotropy := v }
  | .wrapX, v => { t with wrapX := v }
  | .wrapY, v => { t with wrapY := v }
  | .wrapZ, v => { t with wrapZ := v }
  | .min, v => { t with min := v }
  | .mag, v => { t with mag := v }
  | .mip, v => { t with mip := v }

theorem get_set_self (t : TextureFilter) (f : Field) (v : f.Value) : (t.set f v).get f = v := by
  cases f <;> rfl

theorem get_set_of_ne (t : TextureFilter) {f g : Field} (v : f.Value) (h : f ≠ g) :
    (t.set f v).get g = t.get g := by
  cases f <;> cases g <;> first | rfl | exact absurd rfl h

/-- A filter has all fields. -/
@[reducible] def fields : Fields TextureFilter where
  Field := Field
  Value := Field.Value
  get? t f := some (t.get f)
  set := set
  get?_set_self t f v := congrArg some (t.get_set_self f v)
  get?_set_of_ne t _ _ v h := congrArg some (t.get_set_of_ne v h)

/-- The lines of a filter block: one for every field, and one for all axes. -/
def lines : List fields.Line :=
  [.sets "mipMaps" .mipMaps .flag,
    .sets "anisotropy" .anisotropy (.number Float.toUInt32),
    ⟨"wrap", WrapMode, .keyword WrapMode.vocabulary,
      fun v => [⟨.wrapX, v⟩, ⟨.wrapY, v⟩, ⟨.wrapZ, v⟩]⟩,
    .sets "wrapX" .wrapX (.keyword WrapMode.vocabulary),
    .sets "wrapY" .wrapY (.keyword WrapMode.vocabulary),
    .sets "wrapZ" .wrapZ (.keyword WrapMode.vocabulary),
    .sets "min" .min (.keyword SampleMode.vocabulary),
    .sets "mag" .mag (.keyword SampleMode.vocabulary),
    .sets "mip" .mip (.keyword MipMapFilter.vocabulary)]

theorem attributes_eq : attributes = lines.map (·.attribute) := rfl

end TextureFilter

namespace TextureDraft

/-- The fields of a texture draft, those of its filter among them. -/
inductive Field where
  | imageFile | type | bufferType | format | formatHW | width | height | depth
  | fillColor | colorKey | renderTarget
  | filter (f : TextureFilter.Field)
deriving DecidableEq

/-- The type of a field. -/
@[reducible] def Field.Value : Field → Type
  | imageFile => String
  | type => TextureType
  | bufferType => BufferType
  | format => PixelFormat
  | formatHW => HardwareFormat
  | width | height | depth => Int32
  | fillColor | colorKey => Color
  | renderTarget => Bool
  | filter f => f.Value

/-- The value of a field. -/
def get (d : TextureDraft) : (f : Field) → f.Value
  | .imageFile => d.settings.fileName
  | .type => d.settings.type
  | .bufferType => d.settings.bufferType
  | .format => d.settings.format
  | .formatHW => d.settings.hardwareFormat
  | .width => d.settings.width
  | .height => d.settings.height
  | .depth => d.settings.depth
  | .fillColor => d.fillColor
  | .colorKey => d.colorKey
  | .renderTarget => d.renderTarget
  | .filter f => d.settings.filter.get f

/-- The draft with another value in one field. -/
def set (d : TextureDraft) : (f : Field) → f.Value → TextureDraft
  | .imageFile, v => d.change fun s => { s with fileName := v }
  | .type, v => d.change fun s => { s with type := v }
  | .bufferType, v => d.change fun s => { s with bufferType := v }
  | .format, v => d.change fun s => { s with format := v }
  | .formatHW, v => d.change fun s => { s with hardwareFormat := v }
  | .width, v => d.change fun s => { s with width := v }
  | .height, v => d.change fun s => { s with height := v }
  | .depth, v => d.change fun s => { s with depth := v }
  | .fillColor, v => { d with fillColor := v }
  | .colorKey, v => { d with colorKey := v }
  | .renderTarget, v => { d with renderTarget := v }
  | .filter f, v => d.changeFilter (·.set f v)

theorem get_set_self (d : TextureDraft) (f : Field) (v : f.Value) : (d.set f v).get f = v := by
  cases f with
  | filter f => exact TextureFilter.get_set_self _ f v
  | _ => rfl

theorem get_set_of_ne (d : TextureDraft) {f g : Field} (v : f.Value) (h : f ≠ g) :
    (d.set f v).get g = d.get g := by
  cases f with
  | filter f =>
    cases g with
    | filter g => exact TextureFilter.get_set_of_ne _ v fun heq => h (congrArg Field.filter heq)
    | _ => rfl
  | _ => cases g <;> first | rfl | exact absurd rfl h

/-- A draft has all fields. -/
@[reducible] def fields : Fields TextureDraft where
  Field := Field
  Value := Field.Value
  get? d f := some (d.get f)
  set := set
  get?_set_self d f v := congrArg some (d.get_set_self f v)
  get?_set_of_ne d _ _ v h := congrArg some (d.get_set_of_ne v h)

/-- A field has the last value given for it, else the one it had. -/
theorem get_after (d : TextureDraft) (given : List fields.Setting) (f : Field) :
    (fields.after d given).get f = (Fields.last? given f).getD (d.get f) :=
  Option.some.inj (fields.get?_after d given f)

/-- The lines of a texture block that set a field of their own. -/
def lines : List fields.Line :=
  [.sets "imageFile" .imageFile .text,
    .sets "fillColor" .fillColor .color,
    .sets "type" .type (.keyword TextureType.vocabulary),
    .sets "bufferType" .bufferType (.keyword BufferType.vocabulary),
    .sets "format" .format (.keyword PixelFormat.vocabulary),
    .sets "formatHW" .formatHW (.keyword HardwareFormat.vocabulary),
    .sets "width" .width (.number Float.toInt32),
    .sets "height" .height (.number Float.toInt32),
    .sets "depth" .depth (.number Float.toInt32),
    .sets "colorKey" .colorKey .color,
    .sets "renderTarget" .renderTarget .flag]

theorem attributes_eq : attributes = lines.map (·.attribute) := rfl

/-- A setting of the filter as one of the draft. -/
def ofFilter (x : TextureFilter.fields.Setting) : fields.Setting := ⟨.filter x.1, x.2⟩

theorem changeFilter_after (d : TextureDraft) (given : List TextureFilter.fields.Setting) :
    d.changeFilter (TextureFilter.fields.after · given) =
      fields.after d (given.map ofFilter) := by
  induction given generalizing d with
  | nil => rfl
  | cons x given ih => exact ih (d.set (.filter x.1) x.2)

/-- What a line of a texture block gives: a field, or all that its filter block gives. -/
inductive Gives {ρ : Type} (s : Parser.State ρ) : List fields.Setting → Parser.State ρ → Prop
  | line {given : List fields.Setting} {u : Parser.State ρ} : Fields.Gives lines s given u →
      Gives s given u
  | filter {given : List TextureFilter.fields.Setting} {t u : Parser.State ρ} :
      s.cursor.current.text = "filter" → (Parser.expect .leftBrace).run s = (.ok (), t) →
      Parser.BlockGives (Fields.Gives TextureFilter.lines) t given u →
      Gives s (given.map ofFilter) u

/-- The texture that a recorder makes of a draft. -/
def described (d : TextureDraft) : Texture where
  source := if d.settings.fileName = "" then none else some d.settings.fileName
  settings :=
    if d.settings.fileName = "" then d.settings
    else
      { TextureSettings.default with
        fileName := d.settings.fileName
        filter := d.settings.filter
        format := d.settings.format
        hardwareFormat := d.settings.hardwareFormat
        width := if 0 < d.settings.width ∧ 0 < d.settings.height then d.settings.width
          else TextureSettings.default.width
        height := if 0 < d.settings.width ∧ 0 < d.settings.height then d.settings.height
          else TextureSettings.default.height
        type := d.settings.type
        depth := if d.settings.type = .tex2D then TextureSettings.default.depth
          else d.settings.depth }
  fill :=
    if d.settings.fileName = "" ∧ d.renderTarget = false then
      match d.settings.bufferType with
      | .ubyte => some (.bytes d.fillColor)
      | .float => some (.floats [d.fillColor.red.toNat.toFloat32 / 255,
          d.fillColor.green.toNat.toFloat32 / 255, d.fillColor.blue.toNat.toFloat32 / 255,
          d.fillColor.alpha.toNat.toFloat32 / 255])
    else none
  renderTarget := d.renderTarget
  colorKey := if d.colorKey.alpha < 255 then some d.colorKey else none

theorem finish_eq (d : TextureDraft) (t : Texture) :
    d.finish t = { t with
      renderTarget := if d.renderTarget then true else t.renderTarget
      colorKey := if d.colorKey.alpha < 255 then some d.colorKey else t.colorKey } := by
  unfold finish
  split <;> split <;> rfl

theorem createTexture_described {d : TextureDraft} (h : d.settings.fileName = "") :
    d.finish (d.fill (.ofSettings none d.settings)) = d.described := by
  rw [finish_eq]
  cases htarget : d.renderTarget <;> cases hbuffer : d.settings.bufferType <;>
    simp [fill, described, Texture.ofSettings, Texture.fillBytes, Texture.fillFloats,
      Color.fractions, Color.fraction, h, htarget, hbuffer]

theorem loadTexture_described {d : TextureDraft} (h : d.settings.fileName ≠ "") :
    d.finish (d.setUp (.ofSettings (some d.settings.fileName)
      { TextureSettings.default with fileName := d.settings.fileName })) = d.described := by
  rw [finish_eq]
  by_cases hsize : 0 < d.settings.width ∧ 0 < d.settings.height <;>
    by_cases htype : d.settings.type = .tex2D <;>
    simp [setUp, described, Texture.ofSettings, Texture.setFilter, Texture.setFormat,
      Texture.setHardwareFormat, Texture.setSize, Texture.setType, TextureSettings.hasSize,
      TextureSettings.default, h, hsize, htype]

/-- The file of a draft that has one can be loaded. -/
def Loads (d : TextureDraft) (system : Recorder) : Prop :=
  d.settings.fileName ≠ "" → d.settings.fileName ∉ system.missing

/-- A recorder makes what is described, unless the file is missing. -/
theorem make?_of_loads {d : TextureDraft} {system : Recorder} (h : d.Loads system) :
    ∃ system', d.make? system = (some d.described, system') := by
  refine ⟨(d.make? system).2, Prod.ext ?_ rfl⟩
  by_cases hfile : d.settings.fileName = ""
  · simp [make?, hfile, RenderSystem.createTexture, createTexture_described hfile]
  · simp [make?, hfile, h hfile, RenderSystem.loadTexture, loadTexture_described hfile]

theorem make?_of_not_loads {d : TextureDraft} {system : Recorder} (h : ¬ d.Loads system) :
    ∃ system', d.make? system = (none, system') := by
  have hmissing : d.settings.fileName ≠ "" ∧ d.settings.fileName ∈ system.missing := by
    simpa [Loads] using h
  refine ⟨(d.make? system).2, Prod.ext ?_ rfl⟩
  simp [make?, hmissing, RenderSystem.loadTexture]

end TextureDraft

namespace Parser

/-- How a texture block, or a filter block in it, describes the draft that is kept in `r`. -/
def draftDescription (r : Scene Recorder) {X : Type} (setting : X → TextureDraft.fields.Setting) :
    Description (Scene Recorder) Unit TextureDraft X where
  add d x := d.set (setting x).1 (setting x).2
  carried _ := ()
  scene d := r.changeTexture fun _ => d
  around := r

theorem draftDescription_after (r : Scene Recorder) {X : Type}
    (setting : X → TextureDraft.fields.Setting) (d : TextureDraft) (given : List X) :
    (draftDescription r setting).after d given =
      TextureDraft.fields.after d (given.map setting) := by
  rw [Fields.after, List.foldl_map]
  rfl

theorem filterLine_gives (r : Scene Recorder) :
    (draftDescription r TextureDraft.ofFilter).Follows (Fields.Gives TextureFilter.lines)
      filterLine := by
  intro d s _ u hs h
  obtain ⟨given, hgives, hscene⟩ := readLine_modify_gives TextureFilter.attributes_eq h r
  refine ⟨given, hgives, rfl, ?_⟩
  rw [hscene, hs, draftDescription_after, ← TextureDraft.changeFilter_after]
  rfl

theorem textureLine_gives (r : Scene Recorder) :
    (draftDescription r id).Follows TextureDraft.Gives textureLine := by
  intro d s _ u hs h
  unfold textureLine at h
  split at h
  · rename_i htext
    obtain ⟨_, t, hbrace, hbody⟩ := run_bind_eq_ok h
    have hfree : SceneFree (ρ := Scene Recorder) (expect .leftBrace) := expect_composed _
    obtain ⟨given, hgiven, -, hscene⟩ := Description.block_gives (g := d) (filterLine_gives r)
      ((hfree.scene_eq hbrace).trans hs) hbody
    refine ⟨given.map TextureDraft.ofFilter, .filter htext (hfree.run_inScene hbrace r) hgiven, rfl,
      ?_⟩
    rw [hscene, draftDescription_after, draftDescription_after, List.map_id]
    rfl
  · obtain ⟨given, hgives, hscene⟩ := readLine_modify_gives TextureDraft.attributes_eq h r
    refine ⟨given, .line hgives, rfl, ?_⟩
    rw [hscene, hs, draftDescription_after, List.map_id]
    rfl

section Finish

variable {r : Scene Recorder} {d : TextureDraft} {name : String} {s w : State (Scene Recorder)}
  (hs : s.scene = r.changeTexture fun _ => d)
include hs

/-- A texture that can be made is added as described. -/
theorem finishTexture_adds (hnew : name ∉ r.names .texture) (hloads : d.Loads r.system) :
    ∃ x, (finishTexture name).run s = (.ok (), s.inScene x) ∧
      x.toResources = { r.toResources with textures := r.textures.push name d.described } := by
  obtain ⟨system, hmake⟩ := TextureDraft.make?_of_loads hloads
  have hmade : r.startTexture.addTexture name d = (true, { r.startTexture with
      system, textures := r.textures.push name d.described }) := by
    rw [← Catalog.insert_of_not_mem hnew, Scene.addTexture]
    simp only [Scene.startTexture, hmake]
  refine ⟨(r.startTexture.addTexture name d).2, ?_, by rw [hmade]; rfl⟩
  rw [finishTexture_run, hs]
  change (if (r.startTexture.addTexture name d).1 = true then _ else _, _) = _
  rw [if_pos (by rw [hmade])]
  rfl

/-- If a texture is added, its file has been loaded. -/
theorem loads_of_finishTexture (h : (finishTexture name).run s = (.ok (), w)) :
    d.Loads r.system := by
  by_contra hnot
  obtain ⟨system, hmake⟩ := TextureDraft.make?_of_not_loads hnot
  have hmade : (r.startTexture.addTexture name d).1 = false := by
    rw [Scene.addTexture]
    simp only [Scene.startTexture, hmake]
  rw [finishTexture_run, hs] at h
  have hanswer := congrArg Prod.fst h
  change (if (r.startTexture.addTexture name d).1 = true then _ else _) = _ at hanswer
  rw [hmade] at hanswer
  cases hanswer

end Finish

/-- A texture block does the same wherever it stands. -/
theorem textureBlock_run_inScene {r r' : Scene Recorder} {d d' : TextureDraft}
    {s u : State (Scene Recorder)} (h : (blockBody textureLine ()).run s = (.ok (), u))
    (hs : s.scene = r.changeTexture fun _ => d) (hu : u.scene = r.changeTexture fun _ => d') :
    (blockBody textureLine ()).run (s.inScene (r'.changeTexture fun _ => d)) =
      (.ok (), u.inScene (r'.changeTexture fun _ => d')) := by
  let SameDraft (x x' : Scene Recorder) : Prop :=
    ∃ d, x = (r.changeTexture fun _ => d) ∧ x' = r'.changeTexture fun _ => d
  have hcomposed : Composed (Respects SameDraft) True (blockBody textureLine ()) := by
    refine Composed.mono (lines_composed textureLine_composed _ ()) ?_
    rintro _ _ ⟨⟩ _ _ ⟨d, rfl, rfl⟩
    exact ⟨rfl, _, rfl, rfl⟩
  obtain ⟨x, hrun, e, he, rfl⟩ := hcomposed.run_inScene h ⟨d, hs, rfl⟩
  obtain rfl : e = d' := congrArg (fun x => x.drafts.texture) (he.symm.trans hu)
  exact hrun

end Parser

end MaterialScript
