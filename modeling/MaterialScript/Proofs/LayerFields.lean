/-
What the lines of a texture layer set.

A layer is of the kind its header names, and its lines set the fields that this kind has; a
line for a field of another kind is read in the same way and sets nothing
(`layer_given`).
-/
import MaterialScript.Proofs.Abreast
import MaterialScript.Proofs.Fields
import MaterialScript.Proofs.Tandem
import MaterialScript.RenderSystem.Recorder

namespace MaterialScript

namespace LayerKind

/-- The settings of a fixed-function layer. -/
def standard? : LayerKind → Option StandardLayer
  | standard settings => some settings
  | _ => none

/-- The settings of a relief layer. -/
def relief? : LayerKind → Option ReliefLayer
  | relief settings => some settings
  | _ => none

theorem name_of_ofKeyword? {word : String} {kind : LayerKind} (h : ofKeyword? word = some kind) :
    kind.name = word := by
  unfold ofKeyword? at h
  split at h <;> cases h <;> rfl

end LayerKind

namespace TextureLayer

/-- The fields of texture layers. -/
inductive Field where
  | texture | enabled | visibleMask | index
  | environment | mapping
  | reliefEnabled | heightMapScale | viewRange | minSamples | maxSamples
deriving DecidableEq

namespace Field

/-- The type of a field. -/
@[reducible] def Value : Field → Type
  | texture => Option String
  | enabled | reliefEnabled => Bool
  | visibleMask => UInt32
  | index => UInt8
  | environment => TextureEnvironment
  | mapping => CoordinateMapping
  | heightMapScale | viewRange => Float32
  | minSamples | maxSamples => Int32

/-- The kind of layer that a field belongs to; all layers have the other fields. -/
def kind? : Field → Option String
  | texture | enabled | visibleMask | index => none
  | environment | mapping => some "standard"
  | reliefEnabled | heightMapScale | viewRange | minSamples | maxSamples => some "relief"

end Field

/-- The value of a field, if the layer is of a kind that has it. -/
def get? (l : TextureLayer) : (f : Field) → Option f.Value
  | .texture => some l.texture
  | .enabled => some l.enabled
  | .visibleMask => some l.visibleMask
  | .index => some l.index
  | .environment => l.kind.standard?.map (·.environment)
  | .mapping => l.kind.standard?.map (·.mapping)
  | .reliefEnabled => l.kind.relief?.map (·.enabled)
  | .heightMapScale => l.kind.relief?.map (·.heightMapScale)
  | .viewRange => l.kind.relief?.map (·.viewRange)
  | .minSamples => l.kind.relief?.map (·.minSamples)
  | .maxSamples => l.kind.relief?.map (·.maxSamples)

/-- The layer with another value in one field, if it has that field. -/
def set (l : TextureLayer) : (f : Field) → f.Value → TextureLayer
  | .texture, v => { l with texture := v }
  | .enabled, v => { l with enabled := v }
  | .visibleMask, v => { l with visibleMask := v }
  | .index, v => { l with index := v }
  | .environment, v => l.changeStandard fun s => { s with environment := v }
  | .mapping, v => l.changeStandard fun s => { s with mapping := v }
  | .reliefEnabled, v => l.changeRelief fun s => { s with enabled := v }
  | .heightMapScale, v => l.changeRelief fun s => { s with heightMapScale := v }
  | .viewRange, v => l.changeRelief fun s => { s with viewRange := v }
  | .minSamples, v => l.changeRelief fun s => { s with minSamples := v }
  | .maxSamples, v => l.changeRelief fun s => { s with maxSamples := v }

theorem get?_set_self (l : TextureLayer) (f : Field) (v : f.Value) :
    (l.set f v).get? f = (l.get? f).map fun _ => v := by
  obtain ⟨texture, enabled, visibleMask, index, kind⟩ := l
  cases f <;> cases kind <;> rfl

theorem get?_set_of_ne (l : TextureLayer) {f g : Field} (v : f.Value) (h : f ≠ g) :
    (l.set f v).get? g = l.get? g := by
  obtain ⟨texture, enabled, visibleMask, index, kind⟩ := l
  cases f <;> cases g <;> first | rfl | exact absurd rfl h | (cases kind <;> rfl)

/-- A layer keeps its kind. -/
theorem name_set (l : TextureLayer) (f : Field) (v : f.Value) :
    (l.set f v).kind.name = l.kind.name := by
  obtain ⟨texture, enabled, visibleMask, index, kind⟩ := l
  cases f <;> cases kind <;> rfl

/-- The layer is of a kind that has the field. -/
def Has (l : TextureLayer) (f : Field) : Prop := f.kind? = none ∨ f.kind? = some l.kind.name

instance (l : TextureLayer) (f : Field) : Decidable (l.Has f) :=
  inferInstanceAs (Decidable (_ ∨ _))

theorem isSome_get?_iff (l : TextureLayer) (f : Field) : (l.get? f).isSome ↔ l.Has f := by
  obtain ⟨texture, enabled, visibleMask, index, kind⟩ := l
  cases f <;> cases kind <;>
    simp [get?, Has, Field.kind?, LayerKind.standard?, LayerKind.relief?, LayerKind.name]

theorem set_of_not_has {l : TextureLayer} {f : Field} (h : ¬ l.Has f) (v : f.Value) :
    l.set f v = l := by
  obtain ⟨texture, enabled, visibleMask, index, kind⟩ := l
  cases f <;> cases kind <;> first | rfl | exact absurd (.inl rfl) h | exact absurd (.inr rfl) h

/-- A layer has the fields of its kind. -/
@[reducible] def fields : Fields TextureLayer where
  Field := Field
  Value := Field.Value
  get? := get?
  set := set
  get?_set_self := get?_set_self
  get?_set_of_ne l _ _ v h := l.get?_set_of_ne v h

theorem name_after (l : TextureLayer) (given : List fields.Setting) :
    (fields.after l given).kind.name = l.kind.name := by
  induction given generalizing l with
  | nil => rfl
  | cons x given ih => exact (ih (l.set x.1 x.2)).trans (l.name_set x.1 x.2)

/-- The lines of a layer, the binding of a texture apart. -/
def lines : List fields.Line :=
  [.sets "enable" .enabled .flag,
    .sets "visibleMask" .visibleMask (.number fun v => v.toInt64.toUInt64.toUInt32),
    .sets "index" .index (.number Float.toUInt8),
    .sets "environment" .environment (.keyword TextureEnvironment.vocabulary),
    .sets "mapping" .mapping (.keyword CoordinateMapping.vocabulary),
    .sets "reliefEnable" .reliefEnabled .flag,
    .sets "heightMapScale" .heightMapScale (.number Float.toFloat32),
    .sets "viewRange" .viewRange (.number Float.toFloat32),
    .sets "minSamples" .minSamples (.number Float.toInt32),
    .sets "maxSamples" .maxSamples (.number Float.toInt32)]

theorem attributes_eq : attributes = lines.map (·.attribute) := rfl

/-- What a line of a layer gives: the texture that is bound, or another field. -/
inductive Gives {σ : Type} (s : Parser.State (Scene σ)) :
    List fields.Setting → Parser.State (Scene σ) → Prop
  | line {given : List fields.Setting} {u : Parser.State (Scene σ)} : Fields.Gives lines s given u →
      Gives s given u
  | texture {texture : Option String} {u : Parser.State (Scene σ)} : s.cursor.current.text = "tex" →
      Parser.boundTexture.run s = (.ok texture, u) → Gives s [⟨Field.texture, texture⟩] u

end TextureLayer

namespace Parser

variable {σ : Type}

/-- The texture that is bound depends on the scene by its textures alone. -/
theorem boundTexture_composed_of {may : ∀ α : Type, (Scene σ → α × Scene σ) → Prop}
    (hmay : ∀ name, may Bool fun s => (s.textures.contains name, s)) :
    Composed may True boundTexture := by
  refine .bind nameOrText_composed fun name => .bind (.build (hmay name)) fun found => ?_
  split
  · exact .pure _
  · exact .bind (.note _) fun _ => .pure _

theorem boundTexture_run_inScene {s u : State (Scene σ)} {texture : Option String} {r : Scene σ}
    (h : boundTexture.run s = (.ok texture, u)) (hr : r.textures = s.scene.textures) :
    boundTexture.run (s.inScene r) = (.ok texture, u.inScene r) ∧ u.scene = s.scene := by
  have hcomposed : Composed (Respects fun x x' : Scene σ => x = s.scene ∧ x' = r) True
      boundTexture := by
    refine boundTexture_composed_of ?_
    rintro name _ _ ⟨rfl, rfl⟩
    exact ⟨congrArg (Catalog.contains · name) hr.symm, rfl, rfl⟩
  obtain ⟨_, hrun, hscene, rfl⟩ := hcomposed.run_inScene h ⟨rfl, rfl⟩
  exact ⟨hrun, hscene⟩

/-- A line of a layer is read alike wherever the same textures are known. -/
theorem layerLine_textures (b : Unit) (t : Token) :
    Composed (Respects fun x x' : Scene σ => x.textures = x'.textures) True (layerLine b t) := by
  have hchange : ∀ change, Composed (Respects fun x x' : Scene σ => x.textures = x'.textures) True
      (modify (Scene.changeTextureLayer change)) := fun change => .build fun _ _ h => ⟨rfl, h⟩
  unfold layerLine
  split
  · refine .bind (boundTexture_composed_of fun name x x' h => ?_) fun _ => hchange _
    exact ⟨congrArg (Catalog.contains · name) h, h⟩
  · exact .bind (Attribute.readLine_composed _ t) fun _ => hchange _

theorem layerKind_eq_ok {s u : State (Scene σ)} {kind : LayerKind}
    (h : layerKind.run s = (.ok kind, u)) :
    ∃ word, next.run s = (.ok word, u) ∧ word.kind = .name ∧
      LayerKind.ofKeyword? word.text = some kind := by
  obtain ⟨word, v, hnext, h⟩ := run_bind_eq_ok h
  split at h
  · rename_i hname
    split at h
    · rename_i hkind
      cases h
      exact ⟨word, hnext, hname, hkind⟩
    · cases h
  · cases h

theorem next_run {ρ : Type} (s : State ρ) :
    next.run s =
      (if (s.advance true).cursor.current.isEndOfFile then
        .error (.placed (s.advance true).cursor.current.position .unexpectedEndOfInput)
      else .ok (s.advance true).cursor.current, s.advance true) := by
  simp only [next, run_bind, take, unlessEnd]
  split <;> rfl

/-- A name is read off the next token. -/
theorem declaredName_run_of_next {ρ : Type} (n : Token) :
    ∃ answer, ∀ s : State ρ, (s.advance true).cursor.current = n →
      declaredName.run s = (answer, s.advance true) := by
  by_cases heof : n.isEndOfFile
  · refine ⟨.error (.placed n.position .unexpectedEndOfInput), fun s hs => ?_⟩
    rw [declaredName, run_bind, next_run, hs, if_pos heof]
  · by_cases hname : n.kind = .string ∧ n.text ≠ ""
    · refine ⟨.ok n, fun s hs => ?_⟩
      rw [declaredName, run_bind, next_run, hs, if_neg heof]
      simp only [if_pos hname]
      rfl
    · refine ⟨.error (.placed n.position .expectedIdentifier), fun s hs => ?_⟩
      rw [declaredName, run_bind, next_run, hs, if_neg heof]
      simp only [if_neg hname]
      rfl

/-- Whether it is new depends on the scene besides. -/
theorem newName_run_of_next (kind : ResourceKind) (n : Token) (r : Scene σ) :
    ∃ answer, ∀ s : State (Scene σ), (s.advance true).cursor.current = n → s.scene = r →
      (newName kind).run s = (answer, s.advance true) := by
  obtain ⟨answer, hanswer⟩ := declaredName_run_of_next n
  cases answer with
  | error e =>
    exact ⟨.error e, fun s hs _ => run_bind_of_error (hanswer s hs)⟩
  | ok t =>
    by_cases hnew : r.declares kind t.text
    · refine ⟨.error (.placed t.position (.duplicateDeclaration kind t.text)), fun s hs hr => ?_⟩
      rw [newName, run_bind_of_ok (hanswer s hs), run_bind, refuseDuplicate_run]
      simp only [State.advance, hr, if_pos hnew]
    · refine ⟨.ok t.text, fun s hs hr => ?_⟩
      rw [newName, run_bind_of_ok (hanswer s hs), run_bind, refuseDuplicate_run]
      simp only [State.advance, hr, if_neg hnew]
      rfl

section Lines

variable [RenderSystem σ]

/-- How a layer block describes the layer that has been added to `r`. -/
def layerDescription (r : Scene σ) (name : String) (kind : LayerKind) :
    Description (Scene σ) Unit TextureLayer TextureLayer.fields.Setting where
  add l x := l.set x.1 x.2
  carried _ := ()
  scene l := { r.addTextureLayer name kind with textureLayers := r.textureLayers.push name l }
  around := r

theorem layerLine_gives (r : Scene σ) (name : String) (kind : LayerKind) :
    (layerDescription r name kind).Follows TextureLayer.Gives layerLine := by
  have change : ∀ l f, Scene.changeTextureLayer f ((layerDescription r name kind).scene l) =
      (layerDescription r name kind).scene (f l) := by
    intro l f
    simp only [Scene.changeTextureLayer, layerDescription, Catalog.modifyCurrent_push]
  intro l s _ u hs h
  unfold layerLine at h
  split at h
  · rename_i htext
    obtain ⟨texture, v, hbound, h⟩ := run_bind_eq_ok h
    cases h
    have hr : r.textures = s.scene.textures := by rw [hs]; rfl
    obtain ⟨hrun, hscene⟩ := boundTexture_run_inScene hbound hr
    refine ⟨[⟨.texture, texture⟩], .texture htext hrun, rfl, ?_⟩
    exact (congrArg _ (hscene.trans hs)).trans (change l _)
  · obtain ⟨given, hgives, hscene⟩ := readLine_modify_gives TextureLayer.attributes_eq h r
    refine ⟨given, .line hgives, rfl, ?_⟩
    rw [hscene, hs, change]
    rfl

/-- The header of a layer whose keyword has just been read: a quoted name that is new for its kind,
the word for the kind of the layer, and the `{`. -/
def LayerHeaded (s : State (Scene σ)) (name : String) (word : Token) (kind : LayerKind)
    (u : State (Scene σ)) : Prop :=
  ∃ v x, (newName .textureLayer).run s = (.ok name, v) ∧ next.run v = (.ok word, x) ∧
    word.kind = .name ∧ LayerKind.ofKeyword? word.text = some kind ∧
    (expect .leftBrace).run x = (.ok (), u)

theorem textureLayerHeader_eq_ok {s u : State (Scene σ)} {name : String}
    (h : textureLayerHeader.run s = (.ok name, u)) :
    ∃ word kind, LayerHeaded s name word kind (u.inScene s.scene) ∧
      name ∉ s.scene.names .textureLayer ∧ u.scene = s.scene.addTextureLayer name kind := by
  obtain ⟨_, v, hname, h⟩ := run_bind_eq_ok h
  obtain ⟨kind, x, hkind, h⟩ := run_bind_eq_ok h
  obtain ⟨_, y, hbrace, h⟩ := run_bind_eq_ok h
  cases h
  obtain ⟨hv, hnew⟩ := (newName_commits _).ok hname
  have hx : x.scene = s.scene := (scene_eq_of_run layerKind_composed hkind).trans hv
  have hy : y.scene = s.scene := (scene_eq_of_run (expect_composed _) hbrace).trans hx
  obtain ⟨word, hword, hwordKind, hkeyword⟩ := layerKind_eq_ok hkind
  refine ⟨word, kind, ⟨v, x, hname, hword, hwordKind, hkeyword, ?_⟩, hnew,
    congrArg (Scene.addTextureLayer name kind) hy⟩
  change (expect .leftBrace).run x = (.ok (), y.inScene s.scene)
  rwa [State.inScene_of_eq hy]

/-- A layer that is read is the one that the render system makes for its kind, with the fields set
that its lines give. -/
theorem textureLayer_makes {s w : State (Scene σ)} (h : textureLayer.run s = (.ok (), w)) :
    ∃ name word kind u given, LayerHeaded s name word kind u ∧
      BlockGives TextureLayer.Gives u given (w.inScene s.scene) ∧
      w.scene.toResources = { s.scene.toResources with
        textureLayers := s.scene.textureLayers.push name
          (TextureLayer.fields.after (RenderSystem.makeTextureLayer kind s.scene.system).1
            given) } := by
  obtain ⟨name, u, hheader, hbody⟩ := run_bind_eq_ok h
  obtain ⟨word, kind, hheaded, hnew, hu⟩ := textureLayerHeader_eq_ok hheader
  have hstart : u.scene = (layerDescription s.scene name kind).scene
      (RenderSystem.makeTextureLayer kind s.scene.system).1 := by
    rw [hu]
    exact congrArg (fun c => { s.scene.addTextureLayer name kind with textureLayers := c })
      (Catalog.insert_of_not_mem hnew _)
  obtain ⟨given, hgiven, -, hw⟩ :=
    Description.block_gives (layerLine_gives s.scene name kind) hstart hbody
  exact ⟨name, word, kind, _, given, hheaded, hgiven, by rw [hw]; rfl⟩

end Lines

/-! ## Headers of other kinds -/

/-- The states differ in one token alone, the second that will be read: it is `word` in `s` and
`word'` in `s'`. -/
def State.SecondApart {ρ : Type} (word word' : Token) (s s' : State ρ) : Prop :=
  ∃ front n more, s.cursor.rest = front ++ word :: more ∧
    visible s.cursor.lineBreaksCount front = [n] ∧ s' = s.withRest (front ++ word' :: more)

/-- The runs answer the same after as many tokens, and leave the same variables and notices. -/
structure ReadAlike {ρ α : Type} (x y : Except ScriptError α × State ρ) : Prop where
  answer : y.1 = x.1
  offset : y.2.cursor.offset = x.2.cursor.offset
  bindings : y.2.bindings = x.2.bindings
  journal : y.2.journal = x.2.journal

theorem layerKind_run {s : State (Scene σ)} {kind : LayerKind}
    (hname : (s.advance true).cursor.current.kind = .name)
    (hkind : LayerKind.ofKeyword? (s.advance true).cursor.current.text = some kind) :
    layerKind.run s = (.ok kind, s.advance true) := by
  have heof : (s.advance true).cursor.current.isEndOfFile = false := by
    simp [Token.isEndOfFile, hname]
  rw [layerKind, run_bind, next_run, heof]
  simp only [Bool.false_eq_true, if_false, if_pos hname, hkind]
  rfl

/-- A symbol is read alike by states with the same to come, whatever token they are on. -/
theorem expect_beside {ρ : Type} (symbol : Symbol) {s t : State ρ} (h : s.Beside [] [] (· = ·) t)
    (hrest : s.cursor.rest ≠ []) :
    SameRun (State.Abreast [] [] (· = ·)) ((expect symbol).run s) ((expect symbol).run t) := by
  have hstep := h.abreast_advance hrest true
  have hrun : ∀ s : State ρ, (expect symbol).run s =
      (unlessEnd (s.advance true).cursor.current >>= fun t =>
        if t.isSymbol symbol then pure () else unexpected t).run (s.advance true) := fun s =>
    run_bind_assoc (take true) unlessEnd _ s
  have hcomposed : ∀ t : Token, Composed (Respects (ρ := ρ) (· = ·)) True
      (unlessEnd t >>= fun t => if t.isSymbol symbol then pure () else unexpected t) := by
    intro t
    refine .bind (unlessEnd_composed t) fun t => ?_
    split
    · exact .pure ()
    · exact unexpected_composed t
  rw [hrun, hrun, hstep.current]
  exact (hcomposed _).abreast hstep

/-- Where a run ends, what it has passed and what is left are what there was. -/
theorem State.Onward.offset_add {ρ : Type} {s u : State ρ} (h : s.Onward u) :
    u.cursor.offset + u.cursor.rest.length = s.cursor.offset + s.cursor.rest.length := by
  obtain ⟨ts, hts⟩ := h.leads
  simp only [Cursor.offset, hts.rest, hts.passed, List.length_append, List.length_reverse]
  omega

/-- Of scripts of one length as much is passed where as much is left. -/
theorem ReadAlike.of_left {ρ α : Type} {s t : State ρ} {x y : Except ScriptError α × State ρ}
    (hlength : t.cursor.offset + t.cursor.rest.length =
      s.cursor.offset + s.cursor.rest.length)
    (hx : s.Onward x.2) (hy : t.Onward y.2) (hanswer : y.1 = x.1)
    (hleft : y.2.cursor.rest.length = x.2.cursor.rest.length)
    (hbindings : y.2.bindings = x.2.bindings) (hjournal : y.2.journal = x.2.journal) :
    ReadAlike x y := by
  have hpassed := hx.offset_add
  have hpassed' := hy.offset_add
  exact ⟨hanswer, by omega, hbindings, hjournal⟩

/-- A script does not end with a name. -/
theorem more_ne_nil_of_ends {front more : List Token} {word : Token}
    (hends : Ends (front ++ word :: more)) (hname : word.kind = .name) : more ≠ [] := by
  rintro rfl
  obtain ⟨init, last, htokens, hlast⟩ := hends
  obtain rfl := List.singleton_injective (List.append_inj' htokens rfl).2
  simp [Token.isEndOfFile, hname] at hlast

/-- Two steps lead to the second token that can be seen. -/
theorem advance_twice {ρ : Type} {m : Bool} {gap after more : List Token} {n w : Token}
    {t : State ρ} (hgap : ∀ x ∈ gap, Cursor.skipsWhen m x) (hn : Cursor.skipsWhen m n = false)
    (hafter : ∀ x ∈ after, Cursor.skipsWhen m x) (hw : w.kind = .name)
    (hbreaks : t.cursor.lineBreaksCount = m)
    (hrest : t.cursor.rest = (gap ++ n :: after) ++ w :: more) :
    (t.advance true).cursor.current = n ∧ (t.advance true).cursor.rest = after ++ w :: more ∧
      ((t.advance true).advance true).cursor.current = w ∧
      ((t.advance true).advance true).cursor.rest = more := by
  have skips : ∀ x, t.cursor.skips x = Cursor.skipsWhen m x := by
    intro x
    rw [Cursor.skips, hbreaks]
  rw [List.append_assoc, List.cons_append] at hrest
  obtain ⟨hcurrent, hpasses⟩ :=
    advance_of_gap hrest (fun x hx => (skips x).trans (hgap x hx)) ((skips n).trans hn)
  have hrest' : (t.advance true).cursor.rest = after ++ w :: more :=
    hpasses.rest_eq (by simp [hrest])
  obtain ⟨hcurrent', hpasses'⟩ := advance_of_gap (s := t.advance true) hrest'
    (fun x hx => (skips x).trans (hafter x hx)) (by simp [Cursor.skips, Cursor.skipsWhen, hw])
  exact ⟨hcurrent, hrest', hcurrent', hpasses'.rest_eq (by simp [hrest'])⟩

variable [RenderSystem σ]

/-- What follows the word for the kind in the declaration of a layer. -/
def layerRest (name : String) (kind : LayerKind) : Parser (Scene σ) Unit := do
  expect .leftBrace
  modify (Scene.addTextureLayer name kind)
  blockBody layerLine ()

theorem textureLayer_run {s v x : State (Scene σ)} {name : String} {kind : LayerKind}
    (hname : (newName .textureLayer).run s = (.ok name, v))
    (hkind : layerKind.run v = (.ok kind, x)) :
    textureLayer.run s = (layerRest name kind).run x := by
  rw [textureLayer, textureLayerHeader, run_bind, run_bind_of_ok hname, run_bind_of_ok hkind,
    layerRest, run_bind, run_bind]
  rcases (expect .leftBrace).run x with ⟨_ | _, _⟩ <;> rfl

/-- Layers of two kinds are read alike. -/
theorem layerRest_abreast {s t : State (Scene σ)} (h : s.Beside [] [] (· = ·) t)
    (hrest : s.cursor.rest ≠ []) (name : String) (kind kind' : LayerKind) :
    SameRun (State.Abreast [] [] fun x x' => x.textures = x'.textures)
      ((layerRest name kind).run s) ((layerRest name kind').run t) := by
  have hbrace := expect_beside .leftBrace h hrest
  unfold layerRest
  rcases hrun : (expect .leftBrace).run s with ⟨e | _, u⟩ <;> rw [hrun] at hbrace <;>
    obtain ⟨v, hv, huv⟩ := hbrace.eq_right
  · rw [run_bind_of_error hrun, run_bind_of_error hv]
    exact ⟨rfl, huv.mono fun r r' h => congrArg (fun x : Scene σ => x.textures) h⟩
  · rw [run_bind_of_ok hrun, run_bind_of_ok hv]
    have hlines := lines_composed (layerLine_textures (σ := σ)) (.symbol .rightBrace) ()
    have hscene : (u.scene.addTextureLayer name kind).textures =
        (v.scene.addTextureLayer name kind').textures := by
      rw [huv.scene]
      rfl
    exact hlines.abreast (huv.build hscene)

/-- The word for the kind of a layer has no part in whether the declaration is read. -/
theorem textureLayer_readAlike {s s' : State (Scene σ)} {word word' : Token}
    {kind kind' : LayerKind} (happart : s.SecondApart word word' s') (hends : Ends s.cursor.tokens)
    (hname : word.kind = .name) (hname' : word'.kind = .name)
    (hkind : LayerKind.ofKeyword? word.text = some kind)
    (hkind' : LayerKind.ofKeyword? word'.text = some kind') :
    ReadAlike (textureLayer.run s) (textureLayer.run s') := by
  obtain ⟨front, n, more, hrest, hfront, rfl⟩ := happart
  obtain ⟨gap, after, rfl, hgap, hn, hafter⟩ := exists_of_visible hfront
  have hafter : ∀ x ∈ after, Cursor.skipsWhen s.cursor.lineBreaksCount x := by
    simpa [visible] using hafter
  obtain ⟨hn₁, hrest₁, hw₁, hmore₁⟩ := advance_twice hgap hn hafter hname rfl hrest
  generalize ht : s.withRest ((gap ++ n :: after) ++ word' :: more) = t
  have hlength : t.cursor.offset + t.cursor.rest.length =
      s.cursor.offset + s.cursor.rest.length := by
    simp [← ht, State.withRest, hrest, Cursor.offset]
  obtain ⟨hn₂, hrest₂, hw₂, hmore₂⟩ := advance_twice (t := t) hgap hn hafter hname'
    (by rw [← ht]; rfl) (by rw [← ht]; rfl)
  have hbeside : ((s.advance true).advance true).Beside [] [] (· = ·)
      ((t.advance true).advance true) := by
    refine ⟨hmore₂.trans hmore₁.symm, ?_, ?_, ⟨s.journal, rfl, ?_⟩, ?_⟩ <;> rw [← ht] <;> rfl
  have readAlike := ReadAlike.of_left hlength (textureLayer.onward s) (textureLayer.onward t)
  obtain ⟨answer, hanswer⟩ := newName_run_of_next .textureLayer n s.scene
  have hname₁ := hanswer s hn₁ rfl
  have hname₂ := hanswer t hn₂ (by rw [← ht]; rfl)
  cases answer with
  | error e =>
    have hrun₁ : textureLayer.run s = (.error e, s.advance true) :=
      run_bind_of_error (run_bind_of_error hname₁)
    have hrun₂ : textureLayer.run t = (.error e, t.advance true) :=
      run_bind_of_error (run_bind_of_error hname₂)
    apply readAlike <;> rw [hrun₁, hrun₂]
    · simp [hrest₁, hrest₂]
    · rw [← ht]
      rfl
    · rw [← ht]
      rfl
  | ok name =>
    have hmore : more ≠ [] := by
      rw [Cursor.tokens, hrest, ← List.append_assoc] at hends
      exact more_ne_nil_of_ends hends hname
    have hrun₁ := textureLayer_run hname₁
      (layerKind_run (s := s.advance true) (by rw [hw₁, hname]) (by rw [hw₁, hkind]))
    have hrun₂ := textureLayer_run hname₂
      (layerKind_run (s := t.advance true) (by rw [hw₂, hname']) (by rw [hw₂, hkind']))
    obtain ⟨hsame, hstates⟩ := layerRest_abreast hbeside (hmore₁ ▸ hmore) name kind kind'
    rw [← hrun₁, ← hrun₂] at hsame hstates
    obtain ⟨more, hjournal₁, hjournal₂⟩ := hstates.journal
    exact readAlike hsame.symm (congrArg List.length hstates.rest) hstates.bindings
      (hjournal₂.trans hjournal₁.symm)

/-! ## Layers -/

/-- **A layer keeps its kind, and its lines set the fields of that kind.**
- Reading a layer adds one layer, at the end and under the name in its header; earlier ones and all
  other resources stay as they are. It is of the kind that the header names, and has in each field
  of that kind the value of the last line that gives it one, or its default.
- Where a layer has a field, a line for it sets this field and no other. Where it does not have it,
  the line leaves the layer as it is.
- A line is read alike, and ends in the same place, whatever layer it is for: all it depends on are
  the textures there are.
- Declarations that differ in the word for the kind alone are read alike. -/
theorem layer_given :
    (∀ s w : State (Scene Recorder), textureLayer.run s = (.ok (), w) →
      ∃ name word kind u given l, LayerHeaded s name word kind u ∧
        BlockGives TextureLayer.Gives u given (w.inScene s.scene) ∧
        l = TextureLayer.fields.after (.ofKind kind) given ∧ l.kind.name = word.text ∧
        (∀ f, l.get? f = ((TextureLayer.ofKind kind).get? f).map (Fields.last? given f).getD) ∧
        w.scene.toResources = { s.scene.toResources with
          textureLayers := s.scene.textureLayers.push name l }) ∧
    (∀ (l : TextureLayer) (f : TextureLayer.Field) (v : f.Value),
      (l.Has f → (l.set f v).get? f = some v ∧ (l.set f v).kind.name = l.kind.name ∧
        ∀ g, f ≠ g → (l.set f v).get? g = l.get? g) ∧
      (¬ l.Has f → l.set f v = l)) ∧
    (∀ (s u : State (Scene Recorder)) (r : Scene Recorder) (answer : Except ScriptError Unit),
      (layerLine () s.cursor.current).run s = (answer, u) → s.scene.textures = r.textures →
      ∃ r', (layerLine () s.cursor.current).run (s.inScene r) = (answer, u.inScene r')) ∧
    ∀ (s s' : State (Scene Recorder)) (word word' : Token), s.SecondApart word word' s' →
      Ends s.cursor.tokens → word.kind = .name → word'.kind = .name →
      (LayerKind.ofKeyword? word.text).isSome → (LayerKind.ofKeyword? word'.text).isSome →
      ReadAlike (textureLayer.run s) (textureLayer.run s') := by
  refine ⟨fun s w h => ?_, fun l f v => ⟨fun hhas => ?_, fun hnot => l.set_of_not_has hnot v⟩,
    fun s u r answer h hr => ?_, fun s s' word word' happart hends hname hname' hkind hkind' => ?_⟩
  · obtain ⟨name, word, kind, u, given, hheaded, hgiven, hw⟩ := textureLayer_makes h
    refine ⟨name, word, kind, u, given, _, hheaded, hgiven, rfl, ?_,
      TextureLayer.fields.get?_after _ given, hw⟩
    obtain ⟨_, _, -, -, -, hkeyword, -⟩ := hheaded
    exact (TextureLayer.name_after _ given).trans (LayerKind.name_of_ofKeyword? hkeyword)
  · obtain ⟨old, hold⟩ := Option.isSome_iff_exists.1 ((l.isSome_get?_iff f).2 hhas)
    refine ⟨?_, l.name_set f v, fun g hne => l.get?_set_of_ne v hne⟩
    rw [l.get?_set_self, hold]
    rfl
  · obtain ⟨r', hrun, -⟩ := (layerLine_textures () s.cursor.current).run_inScene h hr
    exact ⟨r', hrun⟩
  · obtain ⟨kind, hkind⟩ := Option.isSome_iff_exists.1 hkind
    obtain ⟨kind', hkind'⟩ := Option.isSome_iff_exists.1 hkind'
    exact textureLayer_readAlike happart hends hname hname' hkind hkind'

/-- A standard layer with a line for relief layers, and the same as a relief layer. -/
theorem layer_given_detail :
    let name (text : String) : Token := ⟨.name, text, .start⟩
    let string (text : String) : Token := ⟨.string, text, .start⟩
    let symbol (s : Symbol) : Token := .bare (.symbol s) .start
    let block := [symbol .leftBrace, name "enable", name "false", name "mapping", name "normalMap",
      name "reliefEnable", name "false", name "mapping", name "sphereMap", symbol .rightBrace,
      .bare .endOfFile .start]
    let start (tokens : List Token) :=
      ((Loader.new Recorder.default "/").start (fun _ => .error .notFound) tokens).advance true
    let s := start (name "textureLayer" :: string "detail" :: name "standard" :: block)
    let s' := start (name "textureLayer" :: string "detail" :: name "relief" :: block)
    let line := start [name "reliefEnable", name "false", .bare .endOfFile .start]
    let other := line.scene.addTextureLayer "other" .base
    let standard : TextureLayer := .ofKind (.standard ⟨.modulate, .disable⟩)
    let seen (w : State (Scene Recorder)) := w.scene.textureLayers.entries.map fun entry =>
      (entry.1, entry.2.kind.name, entry.2.enabled, entry.2.kind.standard?.map (·.mapping),
        entry.2.kind.relief?.map (·.enabled))
    s.SecondApart (name "standard") (name "relief") s' ∧
      ReadAlike (textureLayer.run s) (textureLayer.run s') ∧
      (∃ w, textureLayer.run s = (.ok (), w) ∧
        (∃ name word kind u given, LayerHeaded s name word kind u ∧
          BlockGives TextureLayer.Gives u given (w.inScene s.scene) ∧
          w.scene.textureLayers = s.scene.textureLayers.push name
            (TextureLayer.fields.after (.ofKind kind) given)) ∧
        seen w = [("detail", "standard", false, some .sphereMap, none)]) ∧
      seen (textureLayer.run s').2 = [("detail", "relief", false, none, some false)] ∧
      standard.set .reliefEnabled false = standard ∧
      (standard.set .mapping .sphereMap).get? .mapping = some .sphereMap ∧
      ∃ u r', (layerLine () line.cursor.current).run line = (.ok (), u) ∧
        (layerLine () line.cursor.current).run (line.inScene other) = (.ok (), u.inScene r') := by
  intro name string symbol block start s s' line other standard seen
  have happart : s.SecondApart (name "standard") (name "relief") s' :=
    ⟨[string "detail"], string "detail", block, rfl, rfl, rfl⟩
  have hends : Ends s.cursor.tokens := (State.advance_onward _ true).ends (Cursor.ends_ofTokens _)
  obtain ⟨w, hrun, hseen⟩ : ∃ w, textureLayer.run s = (.ok (), w) ∧
      seen w = [("detail", "standard", false, some .sphereMap, none)] := by
    have hanswer : (textureLayer.run s).1 = .ok () := by decide +kernel
    exact ⟨_, run_of_answer hanswer, by decide +kernel⟩
  obtain ⟨u, hline⟩ : ∃ u, (layerLine () line.cursor.current).run line = (.ok (), u) := by
    have hanswer : ((layerLine () line.cursor.current).run line).1 = .ok () := by decide +kernel
    exact ⟨_, run_of_answer hanswer⟩
  obtain ⟨hmakes, hsets, hlines, hkinds⟩ := layer_given
  obtain ⟨n, word, kind, v, given, _, hheaded, hgiven, rfl, -, -, hw⟩ := hmakes s w hrun
  obtain ⟨r', hother⟩ := hlines line u other _ hline rfl
  exact ⟨happart, hkinds s s' _ _ happart hends rfl rfl rfl rfl,
    ⟨w, hrun, ⟨n, word, kind, v, given, hheaded, hgiven, congrArg Resources.textureLayers hw⟩,
      hseen⟩,
    by decide +kernel, (hsets standard .reliefEnabled false).2 (by decide),
    ((hsets standard .mapping .sphereMap).1 (.inr rfl)).1, u, r', hline, hother⟩

end Parser

end MaterialScript
