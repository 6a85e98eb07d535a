/-
A load does not depend on what its loader did before.

`perform_after`: two loaders over recording render systems that are set up
alike give the same answer to a load and are left with the same resources,
variables, notices and error, whatever loads each has gone through. What an
earlier load left behind is either forgotten when the next load begins (also
the drafts of blocks that an error left open) or, like the render system's
counters, never read; the second part is `Composed.respects` for the relation
`Scene.Alike`.
-/
import MaterialScript.Loader
import MaterialScript.Proofs.SceneChange
import MaterialScript.RenderSystem.Recorder

namespace MaterialScript

/-- Recorders that differ only in what they have counted and recorded. -/
structure Recorder.Alike (r r' : Recorder) : Prop where
  backend : r.backend = r'.backend
  supportsShaders : r.supportsShaders = r'.supportsShaders
  missing : ∀ path, path ∈ r.missing ↔ path ∈ r'.missing

namespace Recorder.Alike

theorem refl (r : Recorder) : r.Alike r := ⟨rfl, rfl, fun _ => Iff.rfl⟩

theorem symm {r r' : Recorder} (h : r.Alike r') : r'.Alike r :=
  ⟨h.backend.symm, h.supportsShaders.symm, fun path => (h.missing path).symm⟩

theorem trans {r r' r'' : Recorder} (h : r.Alike r') (h' : r'.Alike r'') : r.Alike r'' :=
  ⟨h.backend.trans h'.backend, h.supportsShaders.trans h'.supportsShaders,
    fun path => (h.missing path).trans (h'.missing path)⟩

theorem contains_missing {r r' : Recorder} (h : r.Alike r') (path : String) :
    r.missing.contains path = r'.missing.contains path := by
  rw [Bool.eq_iff_iff, List.contains_iff_mem, List.contains_iff_mem]
  exact h.missing path

end Recorder.Alike

/-- Scenes with the same resources, drafts and files over render systems that are alike. -/
structure Scene.Alike (s s' : Scene Recorder) : Prop where
  resources : s.toResources = s'.toResources
  drafts : s.drafts = s'.drafts
  files : s.files = s'.files
  system : s.system.Alike s'.system

/-! ## Changes of the scene -/

/-- Making a texture depends on nothing a recorder has counted. -/
theorem TextureDraft.make?_alike (d : TextureDraft) {r r' : Recorder} (h : r.Alike r') :
    (d.make? r).1 = (d.make? r').1 ∧ (d.make? r).2.Alike (d.make? r').2 := by
  unfold TextureDraft.make?
  split
  · exact ⟨rfl, h⟩
  · refine ⟨?_, h.backend, h.supportsShaders, h.missing⟩
    simp only [RenderSystem.loadTexture, h.contains_missing]

/-- A compiler that treats recorders alike treats scenes alike. -/
theorem Scene.compileWith_respects {compiler : Shader → Recorder → Bool × Shader × Recorder}
    (h : ∀ shader r r', r.Alike r' → (compiler shader r).1 = (compiler shader r').1 ∧
      (compiler shader r).2.1 = (compiler shader r').2.1 ∧
      (compiler shader r).2.2.Alike (compiler shader r').2.2) :
    Parser.Respects Scene.Alike Bool (Scene.compileWith compiler) := by
  rintro ⟨resources, system, drafts, files, requested⟩ ⟨_, system', _, _, requested'⟩
    ⟨rfl, rfl, rfl, hsystem⟩
  unfold Scene.compileWith
  cases resources.shaders.current? with
  | none => exact ⟨rfl, rfl, rfl, rfl, hsystem⟩
  | some entry =>
    obtain ⟨hanswer, hshader, hafter⟩ := h entry.2 system system' hsystem
    refine ⟨hanswer, ?_, rfl, rfl, hafter⟩
    simp only [hshader]

theorem lineChange_respects {kind : ResourceKind} {α : Type}
    {f : Scene Recorder → α × Scene Recorder} (hf : LineChange kind α f) :
    Parser.Respects Scene.Alike α f := by
  cases hf
  case compileStage stage =>
    refine Scene.compileWith_respects fun shader r r' h => ?_
    simp only [RenderSystem.compileStage]
    split
    · exact ⟨rfl, rfl, h⟩
    · exact ⟨rfl, rfl, h⟩
  case compileShader =>
    refine Scene.compileWith_respects fun shader r r' h => ?_
    simp only [RenderSystem.compileShader]
    split
    · exact ⟨rfl, rfl, h⟩
    · exact ⟨rfl, rfl, h.backend, h.supportsShaders, h.missing⟩
  all_goals
    rintro ⟨resources, system, drafts, files, requested⟩ ⟨_, system', _, _, requested'⟩
      ⟨rfl, rfl, rfl, hsystem⟩
  case backend => exact ⟨hsystem.backend, rfl, rfl, rfl, hsystem⟩
  all_goals exact ⟨rfl, rfl, rfl, rfl, hsystem⟩

theorem declarationChange_respects {α : Type} {f : Scene Recorder → α × Scene Recorder}
    (hf : DeclarationChange α f) : Parser.Respects Scene.Alike α f := by
  cases hf
  all_goals
    rintro ⟨resources, system, drafts, files, requested⟩ ⟨_, system', _, _, requested'⟩
      ⟨rfl, rfl, rfl, hsystem⟩
  case supportsShaders => exact ⟨hsystem.supportsShaders, rfl, rfl, rfl, hsystem⟩
  case addTexture name draft =>
    obtain ⟨hmade, hafter⟩ := draft.make?_alike hsystem
    unfold Scene.addTexture
    rcases hrun : draft.make? system with ⟨t?, after⟩
    rcases hrun' : draft.make? system' with ⟨t?', after'⟩
    rw [hrun, hrun'] at hmade hafter
    cases hmade
    cases t? with
    | none => exact ⟨rfl, rfl, rfl, rfl, hafter⟩
    | some t => exact ⟨rfl, rfl, rfl, rfl, hafter⟩
  case declares | layoutNamed | startTexture | takeTexture => exact ⟨rfl, rfl, rfl, rfl, hsystem⟩
  all_goals exact ⟨rfl, rfl, rfl, rfl, hsystem.backend, hsystem.supportsShaders, hsystem.missing⟩

theorem sceneChange_respects {α : Type} {f : Scene Recorder → α × Scene Recorder}
    (hf : SceneChange α f) : Parser.Respects Scene.Alike α f := by
  cases hf with
  | line hline => exact lineChange_respects hline
  | declaration hdeclaration => exact declarationChange_respects hdeclaration

/-- A load changes nothing about a recorder but what it has counted and recorded. -/
theorem lineChange_system {kind : ResourceKind} {α : Type}
    {f : Scene Recorder → α × Scene Recorder} (hf : LineChange kind α f) (s : Scene Recorder) :
    (f s).2.system.Alike s.system := by
  cases hf
  case compileStage stage =>
    simp only [Scene.compileStage, Scene.compileWith, RenderSystem.compileStage]
    split
    · exact .refl _
    · split
      · exact .refl _
      · exact .refl _
  case compileShader =>
    simp only [Scene.compileShader, Scene.compileWith, RenderSystem.compileShader]
    split
    · exact .refl _
    · split
      · exact .refl _
      · exact ⟨rfl, rfl, fun _ => Iff.rfl⟩
  all_goals exact .refl _

theorem declarationChange_system {α : Type} {f : Scene Recorder → α × Scene Recorder}
    (hf : DeclarationChange α f) (s : Scene Recorder) : (f s).2.system.Alike s.system := by
  cases hf
  case addTexture name draft =>
    have hmade : (draft.make? s.system).2.Alike s.system := by
      unfold TextureDraft.make?
      split
      · exact .refl _
      · exact ⟨rfl, rfl, fun _ => Iff.rfl⟩
    unfold Scene.addTexture
    rcases hrun : draft.make? s.system with ⟨t?, after⟩
    rw [hrun] at hmade
    cases t? with
    | none => exact hmade
    | some t => exact hmade
  case declares | supportsShaders | layoutNamed | startTexture | takeTexture => exact .refl _
  all_goals exact ⟨rfl, rfl, fun _ => Iff.rfl⟩

theorem sceneChange_system {α : Type} {f : Scene Recorder → α × Scene Recorder}
    (hf : SceneChange α f) (s : Scene Recorder) : (f s).2.system.Alike s.system := by
  cases hf with
  | line hline => exact lineChange_system hline s
  | declaration hdeclaration => exact declarationChange_system hdeclaration s

/-! ## Loads -/

/-- A load, as a host asks for it. -/
inductive Load where
  | readTokens (tokens : List Token)
  | readSource (source : String)
  | readScript (path : String)
  | loadSource (source : String)
  | loadScript (path : String)

/-- What a host is told about a load: its error, if any, or only whether it succeeded. -/
inductive Load.Answer where
  | read (answer : Except ScriptError Unit)
  | loaded (success : Bool)

namespace Loader

section Loads

variable {σ : Type} [RenderSystem σ]

/-- Does what a host asks for. -/
def perform (l : Loader σ) (files : Files) : Load → Load.Answer × Loader σ
  | .readTokens tokens => let (answer, l) := l.readTokens files tokens; (.read answer, l)
  | .readSource source => let (answer, l) := l.readSource files source; (.read answer, l)
  | .readScript path => let (answer, l) := l.readScript files path; (.read answer, l)
  | .loadSource source => let (success, l) := l.loadSource files source; (.loaded success, l)
  | .loadScript path => let (success, l) := l.loadScript files path; (.loaded success, l)

/-- The loader after a history of loads, each with the files there were at the time. -/
def after (l : Loader σ) (history : List (Files × Load)) : Loader σ :=
  history.foldl (fun l (files, load) => (l.perform files load).2) l

/-- The value the host has given a variable. -/
def hostValue? (l : Loader σ) (name : String) : Option Value := l.definitions.reverse.lookup name

end Loads

/-- Loaders with the same options and host definitions over recorders that are alike. -/
structure SetUpAlike (l m : Loader Recorder) : Prop where
  system : l.system.Alike m.system
  workingDirectory : l.workingDirectory = m.workingDirectory
  definitions : ∀ name, l.hostValue? name = m.hostValue? name

/-- Loaders with the same options and host definitions that are about to read, and cannot be told
apart by reading. -/
structure ReadsAlike (l m : Loader Recorder) : Prop where
  system : l.system.Alike m.system
  bindings : l.bindings.Agrees m.bindings
  journal : l.journal = m.journal
  resources : l.resources = m.resources
  drafts : l.drafts = m.drafts
  lastError : l.lastError = m.lastError

theorem SetUpAlike.refl (l : Loader Recorder) : l.SetUpAlike l := ⟨.refl _, rfl, fun _ => rfl⟩

theorem SetUpAlike.symm {l m : Loader Recorder} (h : l.SetUpAlike m) : m.SetUpAlike l :=
  ⟨h.system.symm, h.workingDirectory.symm, fun name => (h.definitions name).symm⟩

theorem SetUpAlike.trans {l m k : Loader Recorder} (h : l.SetUpAlike m) (h' : m.SetUpAlike k) :
    l.SetUpAlike k :=
  ⟨h.system.trans h'.system, h.workingDirectory.trans h'.workingDirectory,
    fun name => (h.definitions name).trans (h'.definitions name)⟩

/-! ## What a load starts with -/

theorem get?_foldl_set (definitions : List (String × Value)) (vars : Variables) (name : String) :
    (definitions.foldl (fun vars (name, value) => vars.set name value) vars).get? name =
      (definitions.reverse.lookup name).or (vars.get? name) := by
  induction definitions generalizing vars with
  | nil => rfl
  | cons d rest ih =>
    obtain ⟨n, value⟩ := d
    rw [List.foldl_cons, ih, List.reverse_cons, List.lookup_append, Option.or_assoc]
    congr 1
    by_cases h : name = n
    · subst h
      simp
    · have hb : (name == n) = false := by simpa using h
      simp [Variables.get?_set_other vars value h, List.lookup_cons, hb]

/-- Every load starts with the host's variables and the working directory. -/
theorem get?_initialVariables {σ : Type} (l : Loader σ) (name : String) :
    l.initialVariables.get? name =
      (l.hostValue? name).or
        (if name = workingDirectoryName then some (.text l.workingDirectory) else none) := by
  unfold initialVariables hostValue?
  rw [get?_foldl_set]
  congr 1
  split
  · subst_vars
    exact Variables.get?_set_self _ _ _
  · rename_i h
    exact Variables.get?_set_other _ _ h

theorem SetUpAlike.begin {l m : Loader Recorder} (h : l.SetUpAlike m) :
    l.begin.ReadsAlike m.begin where
  system := h.system
  bindings name := by
    change l.initialVariables.get? name = m.initialVariables.get? name
    rw [get?_initialVariables, get?_initialVariables, h.definitions, h.workingDirectory]
  journal := rfl
  resources := rfl
  drafts := rfl
  lastError := rfl

/-! ## What a load does -/

theorem ReadsAlike.start {l m : Loader Recorder} (h : l.ReadsAlike m) (files : Files)
    (tokens : List Token) : (l.start files tokens).Alike Scene.Alike (m.start files tokens) where
  cursor := rfl
  bindings := h.bindings
  journal := h.journal
  scene := ⟨h.resources, h.drafts, rfl, h.system⟩

theorem ReadsAlike.absorb {l m : Loader Recorder} (h : l.ReadsAlike m)
    {s t : Parser.State (Scene Recorder)} (hst : s.Alike Scene.Alike t) :
    (l.absorb s).ReadsAlike (m.absorb t) where
  system := hst.scene.system
  bindings := hst.bindings
  journal := hst.journal
  resources := hst.scene.resources
  drafts := hst.scene.drafts
  lastError := h.lastError

/-- Adding the same notices keeps loaders alike. -/
theorem ReadsAlike.note {l m : Loader Recorder} (h : l.ReadsAlike m) (notices : Journal) :
    (l.note notices).ReadsAlike (m.note notices) :=
  { h with journal := congrArg (· ++ notices) h.journal }

/-- Two loads give the same answer and leave loaders alike. -/
def SameLoad {α : Type} (x y : α × Loader Recorder) : Prop := x.1 = y.1 ∧ x.2.ReadsAlike y.2

theorem ReadsAlike.readFrom {l m : Loader Recorder} (h : l.ReadsAlike m)
    {s t : Parser.State (Scene Recorder)} (hst : s.Alike Scene.Alike t) :
    SameLoad (l.readFrom s) (m.readFrom t) := by
  have hrun := (Parser.script_composed.mono fun _ _ => sceneChange_respects).respects hst
  unfold Loader.readFrom
  rcases hs : Parser.script.run s with ⟨⟨⟩ | e, u⟩ <;> rw [hs] at hrun <;>
    obtain ⟨v, hv, huv⟩ := hrun.eq_right <;> rw [hv]
  · exact ⟨rfl, h.absorb huv⟩
  · have habsorb := h.absorb huv
    simp only [habsorb.resources]
    exact ⟨rfl, habsorb.note _⟩

theorem ReadsAlike.readOn {l m : Loader Recorder} (h : l.ReadsAlike m) (files : Files)
    (tokens : List Token) : SameLoad (l.readOn files tokens) (m.readOn files tokens) := by
  unfold Loader.readOn
  split
  · exact ⟨rfl, h⟩
  split
  · exact ⟨rfl, h⟩
  exact h.readFrom (h.start files tokens)

theorem ReadsAlike.readTextOn {l m : Loader Recorder} (h : l.ReadsAlike m) (files : Files)
    (source : String) : SameLoad (l.readTextOn files source) (m.readTextOn files source) := by
  unfold Loader.readTextOn
  split
  · exact ⟨rfl, h⟩
  · exact h.readOn files _

theorem SetUpAlike.readScript {l m : Loader Recorder} (h : l.SetUpAlike m) (files : Files)
    (path : String) : SameLoad (l.readScript files path) (m.readScript files path) := by
  have hbegin : ReadsAlike { l.begin with journal := [announcement path] }
      { m.begin with journal := [announcement path] } :=
    { h.begin with journal := rfl }
  unfold Loader.readScript
  dsimp only
  split
  · exact ⟨rfl, hbegin⟩
  · exact hbegin.readTextOn files _

theorem SameLoad.conclude {x y : Except ScriptError Unit × Loader Recorder} (h : SameLoad x y) :
    SameLoad (Loader.conclude x) (Loader.conclude y) := by
  obtain ⟨answer, l⟩ := x
  obtain ⟨_, m⟩ := y
  obtain ⟨rfl, h⟩ := h
  cases answer with
  | ok a => exact ⟨rfl, h⟩
  | error e => exact ⟨rfl, { h.note [.error e.message] with lastError := rfl }⟩

theorem SetUpAlike.perform {l m : Loader Recorder} (h : l.SetUpAlike m) (files : Files)
    (load : Load) : SameLoad (l.perform files load) (m.perform files load) := by
  have answered : ∀ {α} {x y : α × Loader Recorder} (f : α → Load.Answer), SameLoad x y →
      SameLoad (f x.1, x.2) (f y.1, y.2) := fun f hxy => ⟨congrArg f hxy.1, hxy.2⟩
  cases load with
  | readTokens tokens => exact answered _ (h.begin.readOn files tokens)
  | readSource source => exact answered _ (h.begin.readTextOn files source)
  | readScript path => exact answered _ (h.readScript files path)
  | loadSource source => exact answered _ (h.begin.readTextOn files source).conclude
  | loadScript path => exact answered _ (h.readScript files path).conclude

/-! ## Histories -/

theorem readFrom_setUpAlike (l : Loader Recorder) {s : Parser.State (Scene Recorder)}
    (hs : s.scene.system.Alike l.system) : (l.readFrom s).2.SetUpAlike l := by
  have hkeeps : (Parser.script.run s).2.scene.system.Alike l.system :=
    Parser.script_composed.keeps (fun s => s.system.Alike l.system)
      (fun _ _ s hf hs => (sceneChange_system hf s).trans hs) hs
  unfold Loader.readFrom
  split
  · rename_i e u hrun
    rw [hrun] at hkeeps
    exact ⟨hkeeps, rfl, fun _ => rfl⟩
  · rename_i u hrun
    rw [hrun] at hkeeps
    exact ⟨hkeeps, rfl, fun _ => rfl⟩

theorem readOn_setUpAlike (l : Loader Recorder) (files : Files) (tokens : List Token) :
    (l.readOn files tokens).2.SetUpAlike l := by
  unfold Loader.readOn
  split
  · exact .refl l
  split
  · exact .refl l
  exact readFrom_setUpAlike l (.refl _)

/-- A load leaves the options, the host definitions and the set-up of the recorder as they are. -/
theorem perform_setUpAlike (l : Loader Recorder) (files : Files) (load : Load) :
    (l.perform files load).2.SetUpAlike l := by
  have readTokens : ∀ tokens, (l.readTokens files tokens).2.SetUpAlike l := fun tokens =>
    (readOn_setUpAlike l.begin files tokens).trans ⟨.refl _, rfl, fun _ => rfl⟩
  have readTextOn : ∀ (k : Loader Recorder) source, (k.readTextOn files source).2.SetUpAlike k := by
    intro k source
    unfold Loader.readTextOn
    split
    · exact .refl k
    · exact readOn_setUpAlike k files _
  have readSource : ∀ source, (l.readSource files source).2.SetUpAlike l := fun source =>
    (readTextOn l.begin source).trans ⟨.refl _, rfl, fun _ => rfl⟩
  have readScript : ∀ path, (l.readScript files path).2.SetUpAlike l := by
    intro path
    unfold Loader.readScript
    dsimp only
    split
    · exact ⟨.refl _, rfl, fun _ => rfl⟩
    · exact (readTextOn _ _).trans ⟨.refl _, rfl, fun _ => rfl⟩
  have conclude : ∀ x : Except ScriptError Unit × Loader Recorder,
      (Loader.conclude x).2.SetUpAlike x.2 := by
    rintro ⟨a | e, k⟩
    · exact ⟨.refl _, rfl, fun _ => rfl⟩
    · exact .refl k
  cases load with
  | readTokens tokens => exact readTokens tokens
  | readSource source => exact readSource source
  | readScript path => exact readScript path
  | loadSource source => exact (conclude _).trans (readSource source)
  | loadScript path => exact (conclude _).trans (readScript path)

theorem after_setUpAlike (l : Loader Recorder) (history : List (Files × Load)) :
    (l.after history).SetUpAlike l := by
  induction history generalizing l with
  | nil => exact .refl l
  | cons event rest ih =>
    exact (ih _).trans (perform_setUpAlike l event.1 event.2)

/-- **A load does not depend on what its loader did before.** Loaders over recorders that are set
up alike (the same backend, shader support and missing files, the same options and host
definitions), each in any state and after any loads, give a load the same answer, and it leaves
them with the same resources, variables, notices and error. -/
theorem perform_after {l m : Loader Recorder} (h : l.SetUpAlike m)
    (history history' : List (Files × Load)) (files : Files) (load : Load) :
    ((l.after history).perform files load).1 = ((m.after history').perform files load).1 ∧
      ((l.after history).perform files load).2.ReadsAlike
        ((m.after history').perform files load).2 :=
  SetUpAlike.perform
    ((after_setUpAlike l history).trans (h.trans (after_setUpAlike m history').symm)) files load

/-- A loader that broke off inside a texture reads as one that has loaded two materials. -/
theorem perform_after_broken_texture :
    let files : Files := fun _ => .error .notFound
    let one := Loader.new Recorder.default "/data"
    let other := Loader.new { Recorder.default with materials := 3 } "/data/"
    let broken := [(files, Load.loadSource "texture \"t\" \x7b renderTarget true nope \x7d")]
    let made := [(files, Load.readSource "material \"a\" \x7b\x7d material \"b\" \x7b\x7d")]
    let load := Load.readSource "texture \"t\" \x7b height 4 \x7d"
    one.SetUpAlike other ∧
      (one.after broken).drafts.texture.renderTarget ∧ (other.after made).system.materials = 5 ∧
      ((one.after broken).perform files load).1 = ((other.after made).perform files load).1 ∧
      ((one.after broken).perform files load).2.ReadsAlike
        ((other.after made).perform files load).2 := by
  intro files one other broken made load
  have alike : one.SetUpAlike other := ⟨⟨rfl, rfl, fun _ => Iff.rfl⟩, rfl, fun _ => rfl⟩
  exact ⟨alike, by decide +kernel, by decide +kernel, perform_after alike broken made files load⟩

end Loader

end MaterialScript
