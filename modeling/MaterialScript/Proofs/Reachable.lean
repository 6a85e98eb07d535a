/-
What holds of a loader whatever a host has done with it.

A host makes a loader, binds variables and loads scripts (`Loader.Reachable`). A
load either fails before it reads and leaves nothing, or it reads a script from
nothing (`Loader.start?`, `Loader.Outcome`). So what holds of no resources, and
of those that a script leaves whether it succeeds or fails, holds of the
resources of every loader (`Loader.Reachable.invariant`).
-/
import MaterialScript.Proofs.History
import MaterialScript.Proofs.Reading

namespace MaterialScript

variable {σ : Type} [RenderSystem σ]

/-- A load has succeeded. -/
def Load.Answer.isOk : Load.Answer → Bool
  | .read answer => answer.isOk
  | .loaded success => success

/-- A script is about to be read, and nothing has been built. -/
structure Parser.State.Fresh (s : Parser.State (Scene σ)) : Prop where
  resources : s.scene.toResources = .empty
  drafts : s.scene.drafts = .empty
  ends : Ends s.cursor.tokens
  lineBreaks : s.cursor.lineBreaksCount = false

namespace Loader

/-! ## One load -/

/-- The state in which tokens are read; `none` if there is nothing to read in them, or their
brackets are not balanced. -/
def startOn? (l : Loader σ) (files : Files) (tokens : List Token) :
    Option (Parser.State (Scene σ)) :=
  if declaresNothing tokens then none
  else
    match Brackets.check tokens with
    | .error _ => none
    | .ok () => some (l.start files tokens)

/-- The state in which a text is read; `none` if it cannot be scanned, either. -/
def startOnText? (l : Loader σ) (files : Files) (source : String) :
    Option (Parser.State (Scene σ)) :=
  match Source.tokens source with
  | .error _ => none
  | .ok tokens => l.startOn? files tokens

/-- The state in which a load starts to read its script; `none` if it fails before. -/
def start? (l : Loader σ) (files : Files) : Load → Option (Parser.State (Scene σ))
  | .readTokens tokens => l.begin.startOn? files tokens
  | .readSource source | .loadSource source => l.begin.startOnText? files source
  | .readScript path | .loadScript path =>
    match files path with
    | .error _ => none
    | .ok source => { l.begin with journal := [announcement path] }.startOnText? files source

omit [RenderSystem σ] in
theorem startOn?_eq_some {l : Loader σ} {files : Files} {tokens : List Token}
    {s : Parser.State (Scene σ)} : l.startOn? files tokens = some s ↔
      declaresNothing tokens = false ∧ Brackets.check tokens = .ok () ∧
        l.start files tokens = s := by
  unfold startOn?
  cases declaresNothing tokens
  · rcases Brackets.check tokens with _ | _ <;> simp
  · simp

/-- A load that starts reads on from there. -/
theorem readOn_of_startOn? {l : Loader σ} {files : Files} {tokens : List Token}
    {s : Parser.State (Scene σ)} (h : l.startOn? files tokens = some s) :
    l.readOn files tokens = l.readFrom s := by
  obtain ⟨hsomething, hcheck, rfl⟩ := startOn?_eq_some.1 h
  rw [readOn, hsomething, if_neg Bool.false_ne_true, hcheck]

/-- A load that starts in such a state succeeds or not, and leaves a loader. -/
inductive Outcome : Option (Parser.State (Scene σ)) → Bool → Loader σ → Prop
  | unread {l : Loader σ} : l.resources = .empty → Outcome none false l
  | read {s u : Parser.State (Scene σ)} {answer : Except ScriptError Unit} {l : Loader σ} :
      Parser.script.run s = (answer, u) → l.resources = u.scene.toResources →
      l.system = u.scene.system → Outcome (some s) answer.isOk l

theorem Outcome.congr {start? : Option (Parser.State (Scene σ))} {success : Bool} {l k : Loader σ}
    (h : Outcome start? success l) (hresources : k.resources = l.resources)
    (hsystem : k.system = l.system) : Outcome start? success k := by
  cases h with
  | unread hempty => exact .unread (hresources.trans hempty)
  | read hrun hl hl' => exact .read hrun (hresources.trans hl) (hsystem.trans hl')

section Begun

variable {l : Loader σ} (hempty : l.resources = .empty) (files : Files)
include hempty

theorem readOn_outcome (tokens : List Token) :
    Outcome (l.startOn? files tokens) (l.readOn files tokens).1.isOk
      (l.readOn files tokens).2 := by
  unfold startOn? readOn
  split
  · exact .unread hempty
  rcases Brackets.check tokens with _ | _
  · exact .unread hempty
  · rcases hrun : Parser.script.run (l.start files tokens) with ⟨_ | _, u⟩
    · simp only [readFrom, hrun]
      exact .read hrun rfl rfl
    · simp only [readFrom, hrun]
      exact .read hrun rfl rfl

theorem readTextOn_outcome (source : String) :
    Outcome (l.startOnText? files source) (l.readTextOn files source).1.isOk
      (l.readTextOn files source).2 := by
  unfold startOnText? readTextOn
  rcases Source.tokens source with _ | tokens
  · exact .unread hempty
  · exact readOn_outcome hempty files tokens

end Begun

theorem readScript_outcome (l : Loader σ) (files : Files) (path : String) :
    Outcome (l.start? files (.readScript path)) (l.readScript files path).1.isOk
      (l.readScript files path).2 := by
  simp only [start?, readScript]
  rcases files path with _ | source
  · exact .unread rfl
  · exact readTextOn_outcome rfl files source

theorem Outcome.conclude {start? : Option (Parser.State (Scene σ))}
    {x : Except ScriptError Unit × Loader σ} (h : Outcome start? x.1.isOk x.2) :
    Outcome start? (Loader.conclude x).1 (Loader.conclude x).2 := by
  obtain ⟨e | _, l⟩ := x
  · exact h.congr rfl rfl
  · exact h

theorem perform_outcome (l : Loader σ) (files : Files) (load : Load) :
    Outcome (l.start? files load) (l.perform files load).1.isOk (l.perform files load).2 := by
  cases load with
  | readTokens tokens => exact readOn_outcome rfl files tokens
  | readSource source => exact readTextOn_outcome rfl files source
  | readScript path => exact readScript_outcome l files path
  | loadSource source =>
    exact (readTextOn_outcome (l := l.begin) rfl files source).conclude
  | loadScript path => exact (readScript_outcome l files path).conclude

omit [RenderSystem σ] in
/-- A load reads tokens after it has begun, and may have noted something. -/
theorem start?_eq_some {l : Loader σ} {files : Files} {load : Load} {s : Parser.State (Scene σ)}
    (h : l.start? files load = some s) :
    ∃ journal tokens, s = { l.begin with journal }.start files tokens := by
  have tokens : ∀ journal {ts}, { l.begin with journal }.startOn? files ts = some s →
      ∃ journal tokens, s = { l.begin with journal }.start files tokens := by
    intro journal ts h
    exact ⟨journal, ts, (startOn?_eq_some.1 h).2.2.symm⟩
  have text : ∀ journal {source}, { l.begin with journal }.startOnText? files source = some s →
      ∃ journal tokens, s = { l.begin with journal }.start files tokens := by
    intro journal source h
    unfold startOnText? at h
    split at h
    · cases h
    · exact tokens journal h
  have script : ∀ {path}, l.start? files (.readScript path) = some s →
      ∃ journal tokens, s = { l.begin with journal }.start files tokens := by
    intro path h
    simp only [start?] at h
    split at h
    · cases h
    · exact text _ h
  cases load with
  | readTokens ts => exact tokens [] h
  | readSource source => exact text [] h
  | readScript path => exact script h
  | loadSource source => exact text [] h
  | loadScript path => exact script h

omit [RenderSystem σ] in
/-- A load reads its script from nothing. -/
theorem fresh_of_start? {l : Loader σ} {files : Files} {load : Load} {s : Parser.State (Scene σ)}
    (h : l.start? files load = some s) : s.Fresh ∧ s.scene.files = files := by
  obtain ⟨journal, tokens, rfl⟩ := start?_eq_some h
  exact ⟨⟨rfl, rfl, Cursor.ends_ofTokens tokens, rfl⟩, rfl⟩

omit [RenderSystem σ] in
/-- A load starts with what the host has set up. -/
theorem bindings_of_start? {l : Loader σ} {files : Files} {load : Load}
    {s : Parser.State (Scene σ)} (h : l.start? files load = some s) :
    s.bindings = l.initialVariables := by
  obtain ⟨journal, tokens, rfl⟩ := start?_eq_some h
  rfl

/-! ## All loads -/

/-- What a host can come to: it makes a loader, binds variables and loads scripts. -/
inductive Reachable : Loader σ → Prop
  | new (system : σ) (directory : String) : Reachable (.new system directory)
  | define {l : Loader σ} (name : String) (value : Value) :
      Reachable l → Reachable (l.define name value).2
  | load {l : Loader σ} (files : Files) (load : Load) :
      Reachable l → Reachable (l.perform files load).2

theorem Reachable.after {l : Loader σ} (h : l.Reachable) (history : List (Files × Load)) :
    (l.after history).Reachable := by
  induction history generalizing l with
  | nil => exact h
  | cons entry history ih => exact ih (h.load entry.1 entry.2)

omit [RenderSystem σ] in
theorem resources_define (l : Loader σ) (name : String) (value : Value) :
    (l.define name value).2.resources = l.resources := by
  unfold define
  split
  · rfl
  · split <;> rfl

/-- What holds of no resources, and of those a script leaves, holds of the resources of every
loader. -/
theorem Reachable.invariant {I : Resources → Prop} (hempty : I .empty)
    (hscript : ∀ s : Parser.State (Scene σ), s.Fresh → I (Parser.script.run s).2.scene.toResources)
    {l : Loader σ} (h : l.Reachable) : I l.resources := by
  induction h with
  | new system directory => exact hempty
  | define name value _ ih => rwa [resources_define]
  | @load l files load _ _ =>
    have houtcome := perform_outcome l files load
    generalize hstart : l.start? files load = start at houtcome
    generalize (l.perform files load).1.isOk = success at houtcome
    cases houtcome with
    | unread hnone =>
      rw [hnone]
      exact hempty
    | @read s u answer _ hrun hresources _ =>
      have hs := hscript s (fresh_of_start? hstart).1
      rw [hrun] at hs
      rw [hresources]
      exact hs

end Loader

end MaterialScript
