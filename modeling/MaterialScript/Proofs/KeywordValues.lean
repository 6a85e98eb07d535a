/-
Words that a script chooses from a vocabulary.

A word in the place of another makes no difference but in the resource it stands in:
the load goes on alike and ends with the same answer, with the same resources but for
that one and, where it is a vertex format, for the copies of it that shaders hold
(`Loader.readTokens_word`). What it tells differs by the warning of an unknown word.
-/
import MaterialScript.Proofs.Abreast
import MaterialScript.Proofs.Forks
import MaterialScript.Proofs.Nesting

namespace MaterialScript

/-! ## Vocabularies of keys -/

/-- The vocabulary of an attribute whose value is a word. -/
def Attribute.vocabulary? {β : Type} : Attribute β → Option (Vocabulary Unit)
  | keyword changes => some (changes.map fun _ => ())
  | color _ | number _ | flag _ | text _ => none

/-- The vocabulary that the value of a key of a block is chosen from, the version of a stage apart,
which tells whether there may be code. -/
def Parser.BlockKind.vocabulary? : Parser.BlockKind → String → Option (Vocabulary Unit)
  | material, key => (Material.attributes.lookup key).bind Attribute.vocabulary?
  | component _, key => (VertexAttribute.attributes.lookup key).bind Attribute.vocabulary?
  | texture, key => (TextureDraft.attributes.lookup key).bind Attribute.vocabulary?
  | filter, key => (TextureFilter.attributes.lookup key).bind Attribute.vocabulary?
  | textureLayer, key => (TextureLayer.attributes.lookup key).bind Attribute.vocabulary?
  | shader, _ | dialect, _ | stage, _ | vertexFormat, _ => none

theorem TextureDraft.fileName_changeFilter (f : TextureFilter → TextureFilter) (d : TextureDraft) :
    (changeFilter f d).settings.fileName = d.settings.fileName := rfl

/-- Where a word is chosen, a texture goes on to name the same file. -/
theorem TextureDraft.word_keeps_fileName {key word : String}
    {changes : Vocabulary (TextureDraft → TextureDraft)}
    (h : TextureDraft.attributes.lookup key = some (.keyword changes)) (d : TextureDraft) :
    ((changes.resolve word).1 d).settings.fileName = d.settings.fileName := by
  have hkeeps : ∀ e ∈ TextureDraft.attributes, ∀ changes, e.2 = .keyword changes →
      e.2.All fun change => ∀ d : TextureDraft,
        (change d).settings.fileName = d.settings.fileName := by
    intro e he changes hchanges
    simp only [TextureDraft.attributes, List.mem_cons, List.not_mem_nil, or_false] at he
    rcases he with rfl | rfl | rfl | rfl | rfl | rfl | rfl | rfl | rfl | rfl | rfl
    all_goals first
      | exact Attribute.all_ofVocabulary fun _ _ => rfl
      | cases hchanges
  have hall := hkeeps _ (mem_of_lookup h) changes rfl
  rcases changes.resolve_cases word with hword | ⟨e, he, hword⟩
  · exact hword ▸ hall.1 d
  · exact hword ▸ hall.2 e he d

/-! ## Scenes -/

/-- The two values of a vertex format. -/
def Resources.copies (kind : ResourceKind) (name : String) (r r' : Resources) :
    Option (VertexFormat × VertexFormat) :=
  if kind = .vertexFormat then do return (← r.vertexFormats.get? name, ← r'.vertexFormats.get? name)
  else none

/-- The same resources but for the one of this kind and name, and shaders that hold a copy of it;
the same render system, which has been asked for the same files. -/
structure Scene.SameBut (kind : ResourceKind) (name : String) (s s' : Scene Recorder) : Prop where
  resources : s.toResources.Apart kind name (s.copies kind name s'.toResources) s'.toResources
  system : s'.system = s.system
  requested : s'.requested = s.requested

namespace Scene

variable {kind : ResourceKind} {name : String} {s s' : Scene Recorder}

theorem Apart.sameBut (h : s.Apart kind name none s') : s.SameBut kind name s' :=
  ⟨h.toApart.of_none _, h.system, h.requested⟩

theorem DraftsApart.sameBut (h : s.DraftsApart s') : s.SameBut kind name s' := by
  obtain ⟨draft, rfl, -⟩ := h
  exact ⟨.refl _, rfl, rfl⟩

theorem CopiedApart.sameBut {f f' : VertexFormat} (h : s.CopiedApart name f f' s') :
    s.SameBut .vertexFormat name s' := by
  have hcopies : s.copies .vertexFormat name s'.toResources = some (f, f') := by
    simp [Resources.copies, h.left, h.right]
  exact ⟨hcopies ▸ h.apart.toApart, h.apart.system, h.apart.requested⟩

/-- The current resource of a kind is changed otherwise. -/
theorem changeMaterial_apart (h : (s.names .material).getLast? = some name)
    (f f' : Material → Material) :
    (s.changeMaterial f).Apart .material name none (s.changeMaterial f') :=
  { Apart.refl s with
    materials := Catalog.Alike.current h f f' }

theorem changeTextureLayer_apart (h : (s.names .textureLayer).getLast? = some name)
    (f f' : TextureLayer → TextureLayer) :
    (s.changeTextureLayer f).Apart .textureLayer name none (s.changeTextureLayer f') :=
  { Apart.refl s with
    textureLayers := Catalog.Alike.current h f f' }

theorem changeVertexFormat_apart (h : (s.names .vertexFormat).getLast? = some name)
    (f f' : VertexFormat → VertexFormat) :
    (s.changeVertexFormat f).Apart .vertexFormat name none (s.changeVertexFormat f') :=
  { Apart.refl s with
    vertexFormats := Catalog.Alike.current h f f' }

/-- The scenes differ in the vertex format declared last. -/
def DeclaredApart (name : String) (s s' : Scene Recorder) : Prop :=
  s.Apart .vertexFormat name none s' ∧ (s.names .vertexFormat).getLast? = some name

/-- Once a format has been declared, it is one of two values. -/
theorem Apart.copied (h : s.Apart .vertexFormat name none s')
    (hname : name ∈ s.names .vertexFormat) : ∃ f f', s.CopiedApart name f f' s' := by
  have hleft : (s.vertexFormats.get? name).isSome :=
    (s.vertexFormats.contains_iff name).2 hname
  have hright : (s'.vertexFormats.get? name).isSome :=
    (s'.vertexFormats.contains_iff name).2 (h.vertexFormats.names_eq.symm ▸ hname)
  obtain ⟨f, hf⟩ := Option.isSome_iff_exists.1 hleft
  obtain ⟨f', hf'⟩ := Option.isSome_iff_exists.1 hright
  exact ⟨f, f', { h with toApart := h.toApart.of_none _ }, hf, hf'⟩

end Scene

namespace Parser

variable {ρ β : Type} {front more : List Token} {w key : Token} {equal : Bool}
  {vocabulary : Vocabulary Unit}

/-! ## One line -/

/-- A word of a vocabulary is read where it stands. -/
theorem keyword_run_seen {s : State ρ} (changes : Vocabulary β)
    (hm : s.cursor.lineBreaksCount = false) (hrest : s.cursor.rest = front ++ w :: more)
    (hlead : Lead false equal front) (hword : w.kind = .name) :
    (keyword changes).run s =
      (.ok (changes.resolve w.text).1, s.past (front ++ [w]) (changes.resolve w.text).2) := by
  have hw : Cursor.skipsWhen false w = false := by simp [Cursor.skipsWhen, hword]
  have hother : w.isSymbol .equal = false := by simp [Token.isSymbol, hword]
  have hread : word.run s = (.ok w.text, s.past (front ++ [w]) []) := by
    cases hlead with
    | blank hpad =>
      have hnone := optionalEqual_seen hm hrest hpad hw
      rw [hother, if_neg Bool.false_ne_true] at hnone
      rw [word, run_bind_of_ok hnone, word_run_seen hm hrest hpad hw, if_pos hword]
    | @equal pad pad' e hpad he hpad' =>
      rw [List.append_assoc, List.cons_append] at hrest
      have hone := optionalEqual_seen hm hrest hpad (skipsWhen_of_isSymbol he)
      have hafter : (s.past (pad ++ [e]) []).cursor.rest = pad' ++ w :: more :=
        s.rest_past (by simp [hrest]) []
      rw [if_pos he] at hone
      rw [word, run_bind_of_ok hone,
        word_run_seen (s := s.past (pad ++ [e]) []) hm hafter hpad' hw, if_pos hword]
      simp
  rw [keyword, run_bind_of_ok hread]
  simp [run_bind, note, State.past]

/-- Two lines that differ in their word, up to what they make of it. -/
theorem readLine_words {attributes : Attributes β} {v : State ρ}
    (hvocabulary : (attributes.lookup key.text).bind Attribute.vocabulary? = some vocabulary)
    (hm : v.cursor.lineBreaksCount = false) (hrest : v.cursor.rest = front ++ w :: more)
    (hlead : Lead false equal front) (hword : w.kind = .name) (x : String) :
    ∃ (changes : Vocabulary (β → β)) (t t' : State ρ),
      attributes.lookup key.text = some (.keyword changes) ∧
      (Attribute.readLine attributes key).run v = (.ok (changes.resolve w.text).1, t) ∧
      (Attribute.readLine attributes key).run
        (v.withRest (front ++ { w with text := x } :: more)) = (.ok (changes.resolve x).1, t') ∧
      t.Beside (v.journal ++ (vocabulary.resolve w.text).2)
        (v.journal ++ (vocabulary.resolve x).2) (fun r r' => r = v.scene ∧ r' = v.scene) t' ∧
      t.cursor.rest = more := by
  obtain ⟨a, ha, hwords⟩ := Option.bind_eq_some_iff.1 hvocabulary
  cases a with
  | keyword changes =>
    obtain rfl : changes.map (fun _ => ()) = vocabulary := Option.some.inj hwords
    have hread : (Attribute.readLine attributes key : Parser ρ (β → β)) = keyword changes := by
      rw [Attribute.readLine, ha]
      rfl
    have hrun := keyword_run_seen changes hm hrest hlead hword
    have hrun' := keyword_run_seen changes (s := v.withRest (front ++ { w with text := x } :: more))
      hm rfl hlead hword
    have hafter : v.cursor.rest = (front ++ [w]) ++ more := by simp [hrest]
    have hafter' : (v.withRest (front ++ { w with text := x } :: more)).cursor.rest =
        (front ++ [{ w with text := x }]) ++ more := by simp [State.withRest]
    rw [Vocabulary.resolve_map, Vocabulary.resolve_map, hread]
    refine ⟨changes, _, _, ha, hrun, hrun', ⟨?_, rfl, rfl, ⟨[], ?_, ?_⟩, rfl, rfl⟩,
      v.rest_past hafter _⟩
    · rw [State.rest_past _ hafter, State.rest_past _ hafter']
    · rw [List.append_nil]
      rfl
    · rw [List.append_nil]
      rfl
  | color _ | number _ | flag _ | text _ => cases hwords

/-! ## The rest of a script -/

/-- A line that changes the scene by what its value makes. -/
theorem run_readLine_modify {attributes : Attributes β} {s t : State ρ}
    {change : β → β} {apply : (β → β) → ρ → ρ} {rest : Unit → Parser ρ Unit}
    (h : (Attribute.readLine attributes key).run s = (.ok change, t)) :
    ((do modify (apply (← Attribute.readLine attributes key))) >>= rest).run s =
      (rest ()).run { t with scene := apply change t.scene } := by
  rw [run_bind_assoc, run_bind_of_ok h]
  exact run_bind_of_ok rfl

section Recorded

variable {ns ns' : Journal} {name : String} {s t : State (Scene Recorder)}

/-- The rest of a block and of the script, where no vertex format is declared in it. -/
theorem lines_then_script (kind : BlockKind) (hkind : kind.resource ≠ .vertexFormat)
    (c : kind.Carried)
    (h : SameStep (State.Abreast ns ns' (Scene.Apart kind.resource name none)) s t) :
    SameRun (State.Abreast ns ns' (Scene.SameBut kind.resource name))
      ((kind.lines c >>= fun _ => script).run s) ((kind.lines c >>= fun _ => script).run t) := by
  refine (lines_abreast (fun c x _ _ h => ?_) c h).bind
    (fun _ _ h => h.mono fun _ _ => Scene.Apart.sameBut) fun _ _ _ h => ?_
  · exact ((kind.line_composed c x).mono fun _ _ => lineChange_apart).abreast h
  · exact ((script_apart hkind).abreast h).mono fun _ _ h => h.mono fun _ _ => Scene.Apart.sameBut

/-- The end of a texture and the rest of the script. -/
theorem finishTexture_then_script (name : String) (h : s.Abreast ns ns' Scene.DraftsApart t) :
    SameRun (State.Abreast ns ns' (Scene.SameBut .texture name))
      ((do finishTexture name; script).run s) ((do finishTexture name; script).run t) := by
  refine (finishTexture_abreast name h).bind
    (fun _ _ h => h.mono fun _ _ => Scene.Apart.sameBut) fun _ _ _ h => ?_
  have hkind : ResourceKind.texture ≠ .vertexFormat := by decide
  exact ((script_apart hkind).abreast h).mono fun _ _ h => h.mono fun _ _ => Scene.Apart.sameBut

/-- The rest of a texture and of the script. -/
theorem texture_then_script (name : String)
    (h : SameStep (State.Abreast ns ns' Scene.DraftsApart) s t) :
    let rest : Parser (Scene Recorder) Unit := do
      let _ ← BlockKind.texture.lines ()
      finishTexture name
      script
    SameRun (State.Abreast ns ns' (Scene.SameBut .texture name)) (rest.run s) (rest.run t) := by
  refine (lines_abreast (fun c x _ _ h => (textureLine_draftsApart c x).abreast h) () h).bind
    (fun _ _ h => h.mono fun _ _ => Scene.DraftsApart.sameBut) fun _ _ _ h => ?_
  exact finishTexture_then_script name h

/-- The rest of a filter block, of its texture and of the script. -/
theorem filter_then_script (name : String)
    (h : SameStep (State.Abreast ns ns' Scene.DraftsApart) s t) :
    let rest : Parser (Scene Recorder) Unit := do
      let _ ← BlockKind.filter.lines ()
      let _ ← BlockKind.texture.lines ()
      finishTexture name
      script
    SameRun (State.Abreast ns ns' (Scene.SameBut .texture name)) (rest.run s) (rest.run t) := by
  refine (lines_abreast (fun c x _ _ h => (filterLine_draftsApart c x).abreast h) () h).bind
    (fun _ _ h => h.mono fun _ _ => Scene.DraftsApart.sameBut) fun _ _ _ h => ?_
  exact texture_then_script name h.step

/-- The rest of a vertex format and of the script, after the block of one of its attributes. -/
theorem vertexFormat_then_script (h : s.Abreast ns ns' (Scene.DeclaredApart name) t) :
    SameRun (State.Abreast ns ns' (Scene.SameBut .vertexFormat name))
      ((BlockKind.vertexFormat.lines () >>= fun _ => script).run s)
      ((BlockKind.vertexFormat.lines () >>= fun _ => script).run t) := by
  have hlines : Composed (Respects (Scene.DeclaredApart name)) True
      (BlockKind.vertexFormat.lines ()) := by
    refine (BlockKind.vertexFormat.lines_composed ()).mono fun _ f hf r r' h => ?_
    obtain ⟨hanswer, hafter⟩ := lineChange_apart hf r r' h.1
    exact ⟨hanswer, hafter, by rw [lineChange_names hf]; exact h.2⟩
  refine (hlines.abreast h).bind (fun _ _ h => h.mono fun _ _ h => h.1.sameBut) fun _ _ _ h => ?_
  obtain ⟨f, f', hcopied⟩ := h.scene.1.copied (List.mem_of_getLast? h.scene.2)
  have hcopies : State.Abreast ns ns' (Scene.CopiedApart name f f') _ _ :=
    ⟨{ h.toBeside with scene := hcopied }, h.current⟩
  exact (script_copies hcopies).mono fun _ _ h => h.mono fun _ _ => Scene.CopiedApart.sameBut

/-- The rest of an attribute, of its vertex format and of the script, from two attributes. -/
theorem component_then_script {a a' : VertexAttribute}
    (h : SameStep (State.Abreast ns ns' fun r r' =>
      r' = r ∧ (r.names .vertexFormat).getLast? = some name) s t) :
    let rest (b : VertexAttribute) : Parser (Scene Recorder) Unit := do
      modify (Scene.changeVertexFormat (·.push b))
      let _ ← BlockKind.vertexFormat.lines ()
      script
    SameRun (State.Abreast ns ns' (Scene.SameBut .vertexFormat name))
      ((blockBody componentLine a >>= rest).run s)
      ((blockBody componentLine a' >>= rest).run t) := by
  intro rest
  have hlines : SameRun (State.Abreast ns ns' fun r r' =>
      r' = r ∧ (r.names .vertexFormat).getLast? = some name)
      ((blockBody componentLine a).run s) ((blockBody componentLine a).run t) := by
    refine lines_abreast (fun c x _ _ h => Composed.abreast ?_ h) a h
    refine (componentLine_composed c x).mono fun _ f hf => ?_
    rintro r _ ⟨rfl, hname⟩
    exact ⟨rfl, rfl, by rw [lineChange_names hf]; exact hname⟩
  have halike := componentLines_endAlike a a' t
  rw [run_bind, run_bind]
  generalize (blockBody componentLine a).run s = x at hlines
  generalize (blockBody componentLine a).run t = y at hlines halike
  generalize (blockBody componentLine a').run t = z at halike
  cases halike with
  | error e v =>
    obtain ⟨answer, u⟩ := x
    obtain ⟨rfl, huv⟩ := hlines
    refine ⟨rfl, huv.mono fun r r' h => ?_⟩
    rw [h.1]
    exact (Scene.Apart.refl r).sameBut
  | ok b b' v =>
    obtain ⟨answer, u⟩ := x
    obtain ⟨rfl, huv⟩ := hlines
    obtain ⟨hscene, hname⟩ := huv.scene
    refine vertexFormat_then_script (huv.build ⟨?_, ?_⟩)
    · rw [hscene]
      exact Scene.changeVertexFormat_apart hname _ _
    · exact (congrArg List.getLast?
        (lineChange_names (.vertexFormat (·.push b)) u.scene .vertexFormat)).trans hname

end Recorded

section Words

variable {s₀ u v : State (Scene Recorder)} {kind : BlockKind} {name : String}
  {k : kind.Carried → Parser (Scene Recorder) Unit} {c : kind.Carried}

/-- **From a word of a vocabulary on, a script goes on as from another in its place.** -/
theorem InBlock.words_abreast (hblock : InBlock s₀ kind name u k) (hline : kind.Comes u c v)
    (hvocabulary : kind.vocabulary? v.cursor.current.text = some vocabulary)
    (hm : v.cursor.lineBreaksCount = false) (hrest : v.cursor.rest = front ++ w :: more)
    (hlead : Lead false equal front) (hword : w.kind = .name) (hmore : more ≠ []) (x : String) :
    SameRun (State.Abreast (v.journal ++ (vocabulary.resolve w.text).2)
        (v.journal ++ (vocabulary.resolve x).2) (Scene.SameBut kind.resource name))
      ((kind.line c v.cursor.current >>= fun c => kind.lines c >>= k).run v)
      ((kind.line c v.cursor.current >>= fun c => kind.lines c >>= k).run
        (v.withRest (front ++ { w with text := x } :: more))) := by
  have hcurrent : kind.resource ≠ .texture → (v.scene.names kind.resource).getLast? = some name :=
    fun hkind => by rw [hline.names]; exact hblock.current hkind
  cases hblock with
  | material hs hrun =>
    obtain ⟨changes, t, t', -, ht, ht', hbeside, rfl⟩ :=
      readLine_words hvocabulary hm hrest hlead hword x
    rw [BlockKind.line, materialLine, run_readLine_modify ht, run_readLine_modify ht']
    refine lines_then_script .material (by decide) () ((hbeside.build ?_).step hmore)
    rw [hbeside.scene.1, hbeside.scene.2]
    exact Scene.changeMaterial_apart (hcurrent (by decide)) _ _
  | textureLayer hs hrun =>
    obtain ⟨changes, t, t', hkey, ht, ht', hbeside, rfl⟩ :=
      readLine_words hvocabulary hm hrest hlead hword x
    have htex : v.cursor.current.text ≠ "tex" := by
      intro htex
      rw [htex] at hkey
      cases hkey
    rw [BlockKind.line, layerLine, if_neg htex, run_readLine_modify ht, run_readLine_modify ht']
    refine lines_then_script .textureLayer (by decide) () ((hbeside.build ?_).step hmore)
    rw [hbeside.scene.1, hbeside.scene.2]
    exact Scene.changeTextureLayer_apart (hcurrent (by decide)) _ _
  | component hs ht hw hrun =>
    obtain ⟨changes, t, t', -, ht, ht', hbeside, rfl⟩ :=
      readLine_words hvocabulary hm hrest hlead hword x
    cases hs with
    | vertexFormat =>
      have hread : (componentLine (σ := Recorder) c v.cursor.current).run v =
          (.ok ((changes.resolve w.text).1 c), t) := run_bind_of_ok ht
      have hread' : (componentLine (σ := Recorder) c v.cursor.current).run
          (v.withRest (front ++ { w with text := x } :: t.cursor.rest)) =
          (.ok ((changes.resolve x).1 c), t') := run_bind_of_ok ht'
      rw [BlockKind.line, run_bind_of_ok hread, run_bind_of_ok hread']
      refine component_then_script (State.Beside.step ?_ hmore)
      refine { hbeside with scene := ⟨?_, ?_⟩ }
      · rw [hbeside.scene.1, hbeside.scene.2]
      · rw [hbeside.scene.1]
        exact hcurrent (show ResourceKind.vertexFormat ≠ .texture by decide)
  | texture hs hrun =>
    obtain ⟨changes, t, t', hkey, ht, ht', hbeside, rfl⟩ :=
      readLine_words hvocabulary hm hrest hlead hword x
    have hfilter : v.cursor.current.text ≠ "filter" := by
      intro hfilter
      rw [hfilter] at hkey
      cases hkey
    rw [BlockKind.line, textureLine, if_neg hfilter, run_readLine_modify ht,
      run_readLine_modify ht']
    refine texture_then_script name ((hbeside.build ?_).step hmore)
    rw [hbeside.scene.1, hbeside.scene.2]
    refine Scene.DraftsApart.of_changes (fun d => ?_) v.scene
    rw [TextureDraft.word_keeps_fileName hkey, TextureDraft.word_keeps_fileName hkey]
  | filter hs ht hw hrun =>
    obtain ⟨changes, t, t', -, ht, ht', hbeside, rfl⟩ :=
      readLine_words hvocabulary hm hrest hlead hword x
    cases hs with
    | texture =>
      rw [BlockKind.line, filterLine, run_readLine_modify ht, run_readLine_modify ht']
      refine filter_then_script name ((hbeside.build ?_).step hmore)
      rw [hbeside.scene.1, hbeside.scene.2]
      refine Scene.DraftsApart.of_changes (fun d => ?_) v.scene
      rw [TextureDraft.fileName_changeFilter, TextureDraft.fileName_changeFilter]
  | vertexFormat hs hrun => cases hvocabulary
  | shader hs hrun => cases hvocabulary
  | dialect hs ht hrun => cases hvocabulary
  | stage hs ht hw hrun => cases hvocabulary

/-- Two scripts that are the same but for such a word. -/
theorem InBlock.words_sameRun {t₀ : State (Scene Recorder)} (hblock : InBlock s₀ kind name u k)
    (hline : kind.Comes u c v)
    (hvocabulary : kind.vocabulary? v.cursor.current.text = some vocabulary)
    (hm : v.cursor.lineBreaksCount = false) (hrest : v.cursor.rest = front ++ w :: more)
    (hlead : Lead false equal front) (hword : w.kind = .name) (hmore : more ≠ []) {x : String}
    (h : s₀.Forked v.cursor.current (front ++ w :: more) (front ++ { w with text := x } :: more)
      t₀) :
    SameRun (State.Abreast (v.journal ++ (vocabulary.resolve w.text).2)
        (v.journal ++ (vocabulary.resolve x).2) (Scene.SameBut kind.resource name))
      (script.run s₀) (script.run t₀) := by
  have hbefore : (front ++ w :: more).length < u.cursor.rest.length :=
    hrest ▸ hline.length_rest_lt
  obtain ⟨u', hblock', huu'⟩ := hblock.forked hline.opened h hbefore
  obtain ⟨v', hline', hvv'⟩ := hline.forked hline.opened huu' (by rw [hrest])
  have hparted := hvv'.resolve_left fun hforked => by
    have hlt := hforked.length_lt
    rw [hrest] at hlt
    exact lt_irrefl _ hlt
  rw [hblock.run_eq, hline.run_eq, hblock'.run_eq, hline'.run_eq, hparted.eq]
  exact hblock.words_abreast hline hvocabulary hm hrest hlead hword hmore x

end Words

end Parser

/-! ## Loads -/

section Name

variable {w : Token} (hword : w.kind = .name) (front post : List Token) (x : String)
include hword

theorem Brackets.check_name :
    check (front ++ { w with text := x } :: post) = check (front ++ w :: post) := by
  refine checkAfter_congr (fun stack => ?_) front []
  have hnone : symbol? w = none := by simp [symbol?, hword]
  have hnone' : symbol? { w with text := x } = none := by simp [symbol?, hword]
  rw [checkAfter.eq_def, checkAfter.eq_def stack (w :: post)]
  simp only [hnone, hnone']

/-- How a sequence is closed does not depend on the text of a name in it. -/
theorem Cursor.closed_name : ∃ more, more ≠ [] ∧
    ∀ x, closed (front ++ { w with text := x } :: post) =
      front ++ { w with text := x } :: more := by
  rcases List.eq_nil_or_concat post with rfl | ⟨post, t, rfl⟩
  · refine ⟨[.bare .endOfFile w.position], by simp, fun x => ?_⟩
    simp [closed, Token.isEndOfFile, hword]
  · have hlast : ∀ x, (front ++ { w with text := x } :: (post ++ [t])).getLast? = some t := by
      intro x
      rw [← List.cons_append, ← List.append_assoc, List.getLast?_concat]
    rw [List.concat_eq_append]
    cases heof : t.isEndOfFile with
    | true => exact ⟨post ++ [t], by simp, fun x => by simp only [closed, hlast, heof, if_true]⟩
    | false =>
      exact ⟨post ++ [t, .bare .endOfFile t.position], by simp, fun x => by
        simp [closed, hlast, heof]⟩

end Name

namespace Loader

/-- How two loads end that differ in a word of the block of the resource of this kind and name: what
they tell starts with `ns` and `ns'`. -/
structure WordApart (kind : ResourceKind) (name : String) (ns ns' : Journal)
    (x y : Except ScriptError Unit × Loader Recorder) : Prop where
  answer : y.1 = x.1
  bindings : y.2.bindings = x.2.bindings
  names : ∀ k, y.2.resources.names k = x.2.resources.names k
  resources : x.2.resources.Apart kind name (x.2.resources.copies kind name y.2.resources)
    y.2.resources
  system : y.2.system = x.2.system
  requested : y.2.requested = x.2.requested
  journal : ∃ more, x.2.journal = ns ++ more ∧ y.2.journal = ns' ++ more

variable {l : Loader Recorder} {files : Files} {tokens front post : List Token} {w : Token}
  {s₀ u v : Parser.State (Scene Recorder)} {block : Parser.BlockKind} {name : String}
  {k : block.Carried → Parser (Scene Recorder) Unit} {c : block.Carried}
  {vocabulary : Vocabulary Unit} {equal : Bool}

theorem summary_eq {r r' : Resources} (h : ∀ k, r'.names k = r.names k) :
    summary r' = summary r := by
  have hcount : ∀ k, r'.count k = r.count k := fun k => by
    rw [← Resources.length_names, h, Resources.length_names]
  simp only [summary, hcount]

/-- What a script leaves, a loader takes over. -/
theorem readFrom_wordApart {kind : ResourceKind} {ns ns' : Journal}
    {s t : Parser.State (Scene Recorder)}
    (h : Parser.SameRun (Parser.State.Abreast ns ns' (Scene.SameBut kind name))
      (Parser.script.run s) (Parser.script.run t)) :
    WordApart kind name ns ns' (l.readFrom s) (l.readFrom t) := by
  rcases hrun : Parser.script.run s with ⟨answer, u⟩
  rw [hrun] at h
  obtain ⟨v, hrun', huv⟩ := h.eq_right
  obtain ⟨more, hs, ht⟩ := huv.journal
  have hnames := huv.scene.resources.names_eq
  cases answer with
  | error e =>
    simp only [readFrom, hrun, hrun']
    exact ⟨rfl, huv.bindings, hnames, huv.scene.resources, huv.scene.system, huv.scene.requested,
      more, hs, ht⟩
  | ok _ =>
    simp only [readFrom, hrun, hrun']
    refine ⟨rfl, huv.bindings, hnames, huv.scene.resources, huv.scene.system, huv.scene.requested,
      more ++ summary u.scene.toResources, ?_, ?_⟩
    · simp [note, absorb, hs]
    · simp [note, absorb, ht, summary_eq hnames]

/-- **A word chosen from a vocabulary makes no difference but in the resource it stands in.** -/
theorem readTokens_word (hstart : l.start? files (.readTokens tokens) = some s₀)
    (hblock : Parser.InBlock s₀ block name u k) (hline : block.Comes u c v)
    (hvocabulary : block.vocabulary? v.cursor.current.text = some vocabulary)
    (htokens : tokens = v.cursor.passed.reverse ++ (front ++ w :: post))
    (hlead : Parser.Lead false equal front) (hword : w.kind = .name) (x : String) :
    WordApart block.resource name (v.journal ++ (vocabulary.resolve w.text).2)
      (v.journal ++ (vocabulary.resolve x).2) (l.readTokens files tokens)
      (l.readTokens files
        (v.cursor.passed.reverse ++ (front ++ { w with text := x } :: post))) := by
  obtain ⟨hsomething, hcheck, rfl⟩ := startOn?_eq_some.1 hstart
  have honward := hblock.entered.opens.1.trans hline.onward
  have hm : v.cursor.lineBreaksCount = false := honward.lineBreaks
  obtain ⟨key, passed, hpassed⟩ : ∃ key passed, v.cursor.passed = key :: passed := by
    refine List.exists_cons_of_ne_nil fun hnil => ?_
    have hopened := hline.opened
    rw [Cursor.current, hnil] at hopened
    cases hopened
  have hkey : v.cursor.current = key := by rw [Cursor.current, hpassed]; rfl
  -- the tokens of both loads are closed in the same way
  obtain ⟨more, hmore, hclosed⟩ := Cursor.closed_name hword (v.cursor.passed.reverse ++ front) post
  simp only [List.append_assoc] at hclosed
  have hafter : ∀ x, Cursor.closed
      (v.cursor.passed.reverse ++ (front ++ { w with text := x } :: post)) =
        passed.reverse ++ v.cursor.current :: (front ++ { w with text := x } :: more) := by
    intro x
    rw [hclosed x, hkey]
    simp [hpassed]
  have hrest : v.cursor.rest = front ++ w :: more := by
    have hall : v.cursor.tokens = Cursor.closed tokens := honward.leads.tokens_eq
    rw [Cursor.tokens, htokens] at hall
    exact List.append_cancel_left (hall.trans (hclosed w.text))
  have hforked : (l.begin.start files tokens).Forked v.cursor.current (front ++ w :: more)
      (front ++ { w with text := x } :: more) (l.begin.start files
        (v.cursor.passed.reverse ++ (front ++ { w with text := x } :: post))) := by
    refine ⟨passed.reverse, ?_, ?_⟩
    · change Cursor.closed tokens = _
      rw [htokens]
      exact hafter w.text
    · simp only [start, Cursor.ofTokens, Parser.State.withRest, hafter x]
  have hcheck' : Brackets.check
      (v.cursor.passed.reverse ++ (front ++ { w with text := x } :: post)) = .ok () := by
    rw [← List.append_assoc, Brackets.check_name hword, List.append_assoc, ← htokens, hcheck]
  have hsomething' : declaresNothing
      (v.cursor.passed.reverse ++ (front ++ { w with text := x } :: post)) = false := by
    simp [declaresNothing, TokenKind.isWhitespace, Token.isEndOfFile, hword]
  rw [readTokens, readOn_of_startOn? hstart, readTokens,
    readOn_of_startOn? (startOn?_eq_some.2 ⟨hsomething', hcheck', rfl⟩)]
  exact readFrom_wordApart
    (hblock.words_sameRun hline hvocabulary hm hrest hlead hword hmore hforked)

/-- A shading that is in the vocabulary in the place of one that is not. -/
theorem readTokens_word_shading :
    let name (text : String) : Token := ⟨.name, text, .start⟩
    let symbol (s : Symbol) : Token := .bare (.symbol s) .start
    let before := [name "material", ⟨.string, "m", .start⟩, symbol .leftBrace, name "shading"]
    let tokens (word : String) :=
      before ++ ([symbol .equal] ++ name word :: [symbol .rightBrace])
    let files : Files := fun _ => .error .notFound
    let l := Loader.new Recorder.default "/"
    let s₀ := l.begin.start files (tokens "glossy")
    let u := (Parser.materialHeader.run (s₀.advance true)).2
    let v := u.advance true
    l.start? files (.readTokens (tokens "glossy")) = some s₀ ∧
      Parser.InBlock s₀ .material "m" u (fun _ => Parser.script) ∧
      Parser.BlockKind.material.Comes u () v ∧ before = v.cursor.passed.reverse ∧
      WordApart .material "m" [.warning "Unknown shading type \"glossy\""] []
        (l.readTokens files (tokens "glossy")) (l.readTokens files (tokens "phong")) := by
  intro name symbol before tokens files l s₀ u v
  have hstart : l.start? files (.readTokens (tokens "glossy")) = some s₀ := rfl
  have hs : Parser.Declares s₀ "material" (s₀.advance true) :=
    ⟨.here (by decide +kernel) (by decide +kernel) (by decide +kernel), by decide +kernel⟩
  have hheader : (Parser.materialHeader.run (s₀.advance true)).1 = .ok "m" := by decide +kernel
  have hblock : Parser.InBlock s₀ .material "m" u (fun _ => Parser.script) :=
    .material hs (Parser.run_of_answer hheader)
  have hline : Parser.BlockKind.material.Comes u () v :=
    .here (by decide +kernel) (by decide +kernel) (by decide +kernel)
  have hpassed : before = v.cursor.passed.reverse := by decide +kernel
  have hkey : v.cursor.current.text = "shading" := by decide +kernel
  have hvocabulary : Parser.BlockKind.material.vocabulary? v.cursor.current.text =
      some (Shading.vocabulary.map fun _ => ()) := by
    rw [hkey]
    rfl
  have htold : v.journal = [] := by decide +kernel
  have hword := readTokens_word hstart hblock hline hvocabulary
    (show tokens "glossy" =
      v.cursor.passed.reverse ++ ([symbol .equal] ++ name "glossy" :: [symbol .rightBrace]) by
      rw [← hpassed])
    (@Parser.Lead.equal false [] [] (symbol .equal) nofun rfl nofun) rfl "phong"
  rw [← hpassed, htold] at hword
  exact ⟨hstart, hblock, hline, hpassed, hword⟩

end Loader

end MaterialScript
