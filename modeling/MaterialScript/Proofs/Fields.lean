/-
What the lines of a block give to what it describes.

The lines set fields one by one: a field has the value of the last line that sets it, or
the value it started with (`Fields.get?_after`).

Values are read without a look at the scene (`SceneFree`). So what a block gives
(`BlockGives`) is told in one scene, the one around the block, and what the block leaves
is made of that alone (`Description.block_gives`), also where it fails
(`Description.block_fails`).
-/
import MaterialScript.Proofs.BlockAcceptance
import MaterialScript.Proofs.Points

namespace MaterialScript

/-! ## Fields and their last values -/

/-- The fields of a `β`, each with the type of its values. A `β` need not have them all; one that
it does not have cannot be set. -/
structure Fields (β : Type) where
  Field : Type
  [decEq : DecidableEq Field]
  Value : Field → Type
  get? : β → (f : Field) → Option (Value f)
  set : β → (f : Field) → Value f → β
  get?_set_self : ∀ b f v, get? (set b f v) f = (get? b f).map fun _ => v
  get?_set_of_ne : ∀ b {f g} v, f ≠ g → get? (set b f v) g = get? b g

namespace Fields

variable {β : Type} (F : Fields β)

instance : DecidableEq F.Field := F.decEq

/-- A field with a value for it. -/
abbrev Setting : Type := Sigma F.Value

variable {F} {f : F.Field}

/-- The value for `f`, if that is the field it is for. -/
def Setting.valueFor? (f : F.Field) (x : F.Setting) : Option (F.Value f) :=
  if h : x.1 = f then some (h ▸ x.2) else none

@[simp] theorem Setting.valueFor?_self (f : F.Field) (v : F.Value f) :
    Setting.valueFor? f ⟨f, v⟩ = some v := by
  simp [valueFor?]

theorem Setting.valueFor?_of_ne {x : F.Setting} (h : x.1 ≠ f) : x.valueFor? f = none := by
  simp [valueFor?, h]

/-- The last value that is given for a field. -/
def last? (given : List F.Setting) (f : F.Field) : Option (F.Value f) :=
  (given.filterMap (Setting.valueFor? f)).getLast?

/-- `b` after it has been given values, one after another. -/
def after (F : Fields β) (b : β) (given : List F.Setting) : β :=
  given.foldl (fun b x => F.set b x.1 x.2) b

@[simp] theorem after_nil (F : Fields β) (b : β) : F.after b [] = b := rfl

@[simp] theorem after_cons (F : Fields β) (b : β) (x : F.Setting) (given : List F.Setting) :
    F.after b (x :: given) = F.after (F.set b x.1 x.2) given := rfl

@[simp] theorem last?_nil : last? ([] : List F.Setting) f = none := rfl

theorem last?_cons_self (v : F.Value f) (given : List F.Setting) :
    last? (⟨f, v⟩ :: given) f = some ((last? given f).getD v) := by
  simp [last?, List.getLast?_cons]

theorem last?_cons_of_ne {x : F.Setting} (h : x.1 ≠ f) (given : List F.Setting) :
    last? (x :: given) f = last? given f := by
  simp [last?, Setting.valueFor?_of_ne h]

/-- **The last value wins**: a field has the last value given for it, else the one it had. -/
theorem get?_after (F : Fields β) (b : β) (given : List F.Setting) (f : F.Field) :
    F.get? (F.after b given) f = (F.get? b f).map (last? given f).getD := by
  induction given generalizing b with
  | nil => cases h : F.get? b f <;> simp [h]
  | cons x given ih =>
    rw [after_cons, ih]
    by_cases h : x.1 = f
    · obtain ⟨_, v⟩ := x
      cases h
      rw [F.get?_set_self, last?_cons_self, Option.map_map]
      rfl
    · rw [F.get?_set_of_ne b x.2 h, last?_cons_of_ne h]

end Fields

namespace Parser

variable {ρ α β γ X : Type}

/-! ## Reading apart from the scene -/

/-- The same state in another scene. -/
def State.inScene (s : State ρ) (r : ρ) : State ρ := { s with scene := r }

@[simp] theorem State.inScene_scene (s : State ρ) (r : ρ) : (s.inScene r).scene = r := rfl

theorem State.inScene_of_eq {s : State ρ} {r : ρ} (h : s.scene = r) : s.inScene r = s := by
  subst h
  rfl

/-- A parser does the same in another scene, as far as `rel` tells of the scenes. -/
theorem Composed.run_inScene {rel : ρ → ρ → Prop} {p : Parser ρ α}
    (hp : Composed (Respects rel) True p) {s u : State ρ} {answer : Except ScriptError α}
    (h : p.run s = (answer, u)) {r : ρ} (hr : rel s.scene r) :
    ∃ r', p.run (s.inScene r) = (answer, u.inScene r') ∧ rel u.scene r' := by
  have hR : Congruence (Respects rel) fun s t : State ρ => ∃ r, t = s.inScene r ∧ rel s.scene r :=
    { cursor := by rintro s _ ⟨r, rfl, -⟩; rfl
      bindings := by rintro s _ ⟨r, rfl, -⟩; exact .refl _
      move := by rintro s _ ⟨r, rfl, hr⟩ c; exact ⟨r, rfl, hr⟩
      note := by rintro s _ ⟨r, rfl, hr⟩ notices; exact ⟨r, rfl, hr⟩
      setVariable := by rintro s _ ⟨r, rfl, hr⟩ name value; exact ⟨r, rfl, hr⟩
      build := by
        rintro α f hf s _ ⟨r, rfl, hr⟩
        obtain ⟨hanswer, hrel⟩ := hf _ _ hr
        exact ⟨hanswer, _, rfl, hrel⟩ }
  have hsame := hp.sameRun hR (s := s) ⟨r, rfl, hr⟩
  rw [h] at hsame
  obtain ⟨_, hrun, r', rfl, hr'⟩ := hsame.eq_right
  exact ⟨r', hrun, hr'⟩

/-- What has nothing to do with the scene. -/
abbrev SceneFree (p : Parser ρ α) : Prop := Composed (fun _ _ => False) True p

/-- It runs alike in all scenes, and leaves them as they are. -/
theorem SceneFree.run_inScene {p : Parser ρ α} (hp : SceneFree p) {s u : State ρ}
    {answer : Except ScriptError α} (h : p.run s = (answer, u)) (r : ρ) :
    p.run (s.inScene r) = (answer, u.inScene r) := by
  have hp : Composed (Respects fun _ x => x = r) True p := hp.mono fun _ _ => False.elim
  obtain ⟨_, hrun, rfl⟩ := hp.run_inScene h rfl
  exact hrun

theorem SceneFree.scene_eq {p : Parser ρ α} (hp : SceneFree p) {s u : State ρ}
    {answer : Except ScriptError α} (h : p.run s = (answer, u)) : u.scene = s.scene :=
  hp.keeps_of_run (fun r => r = s.scene) (fun _ _ _ h => h.elim) h rfl

end Parser

/-! ## Reading values -/

/-- How a value is read. -/
inductive ValueReader : Type → Type 1 where
  | color : ValueReader Color
  | number {α : Type} (convert : Float → α) : ValueReader α
  | flag : ValueReader Bool
  | text : ValueReader String
  | keyword {α : Type} (vocabulary : Vocabulary α) : ValueReader α

namespace ValueReader

variable {α β ρ : Type}

/-- Reads the value. -/
def parser : ValueReader α → Parser ρ α
  | color => Parser.color
  | number convert => return convert (← Parser.number)
  | flag => Parser.flag
  | text => Parser.text
  | keyword vocabulary => Parser.keyword vocabulary

/-- A line that holds the value and changes a `β` by it. -/
def toAttribute : ValueReader α → (α → β → β) → Attribute β
  | color, set => .color set
  | number convert, set => .number fun v => set (convert v)
  | flag, set => .flag set
  | text, set => .text set
  | keyword vocabulary, set => .ofVocabulary vocabulary set

theorem run_toAttribute (r : ValueReader α) (set : α → β → β) (s : Parser.State ρ) :
    (r.toAttribute set).read.run s = (do return set (← r.parser)).run s := by
  cases r with
  | color => rfl
  | flag => rfl
  | text => rfl
  | number convert =>
    simp only [parser]
    rw [Parser.run_bind_assoc]
    rfl
  | keyword vocabulary =>
    simp only [toAttribute, Attribute.ofVocabulary, Attribute.read, parser, Parser.keyword]
    rw [Parser.run_bind_assoc, Parser.run_bind, Parser.run_bind]
    rcases Parser.word.run s with ⟨e | word, u⟩
    · rfl
    · simp only [Vocabulary.resolve_map]
      rfl

theorem sceneFree (r : ValueReader α) : Parser.SceneFree (r.parser : Parser ρ α) := by
  cases r with
  | color => exact Parser.color_composed
  | number convert => exact .bind Parser.number_composed fun _ => .pure _
  | flag => exact Parser.flag_composed
  | text => exact Parser.text_composed
  | keyword vocabulary => exact Parser.keyword_composed vocabulary

end ValueReader

namespace Parser

variable {ρ β γ X : Type}

/-! ## What lines give -/

/-- What the line gives that starts with the token read last, where `gives` tells it for lines that
start with a key. A definition and a discarded block give nothing. -/
inductive LineGives (gives : State ρ → List X → State ρ → Prop) (s : State ρ) :
    List X → State ρ → Prop
  | named {given : List X} {u : State ρ} : s.cursor.current.kind = .name →
      s.cursor.current.text ≠ "discard" → gives s given u → LineGives gives s given u
  | definition {u : State ρ} : s.cursor.current.kind = .symbol .atSign →
      variableDefinition.run s = (.ok (), u) → LineGives gives s [] u
  | discarded {u : State ρ} : s.cursor.current.isName "discard" →
      discardedBlock.run s = (.ok (), u) → LineGives gives s [] u

/-- What the lines from one state to another give, in order. -/
inductive LinesGive (gives : State ρ → List X → State ρ → Prop) :
    State ρ → List X → State ρ → Prop
  | nil {s : State ρ} : LinesGive gives s [] s
  | line {s t u : State ρ} {given more : List X} : ¬ s.AtEnd →
      LineGives gives (s.advance true) given u → LinesGive gives u more t →
      LinesGive gives s (given ++ more) t

/-- What the body of a block gives that ends with the `}` read in `w`. -/
def BlockGives (gives : State ρ → List X → State ρ → Prop) (s : State ρ) (given : List X)
    (w : State ρ) : Prop :=
  ∃ t, LinesGive gives s given t ∧
    (t.advance true).cursor.current.kind = .symbol .rightBrace ∧ w = t.advance true

/-- The body of a block breaks off where the next line should start in `t`: the file ends, or that
line fails. -/
inductive BreaksOff (named : β → Token → Parser ρ β) (b : β) (t : State ρ) (e : ScriptError)
    (w : State ρ) : Prop
  | ended : t.AtEnd → w = t.advance true → BreaksOff named b t e w
  | line : ¬ t.AtEnd → (t.advance true).cursor.current.kind ≠ .symbol .rightBrace →
      (line named b (t.advance true).cursor.current).run (t.advance true) = (.error e, w) →
      BreaksOff named b t e w

section Lines

variable {named : β → Token → Parser ρ β} {b : β} {s t w : State ρ} {e : ScriptError}

/-- A line is read by what its key says, or has nothing to do with the scene. -/
theorem line_eq_or_sceneFree (named : β → Token → Parser ρ β) (b : β) (x : Token) :
    line named b x = named b x ∨ SceneFree (line named b x) := by
  unfold line
  split
  · exact .inr (.bind variableDefinition_composed fun _ => .pure b)
  · split
    · exact .inr (.bind discardedBlock_composed fun _ => .pure b)
    · exact .inl rfl
  · exact .inr (unexpected_composed x)

/-- What has failed here has left the scene alone, and fails alike in another scene. -/
def FailsAlone (p : Parser ρ β) : Prop :=
  ∀ ⦃s w : State ρ⦄ ⦃e : ScriptError⦄, p.run s = (.error e, w) →
    w.scene = s.scene ∧ ∀ r, p.run (s.inScene r) = (.error e, w.inScene r)

theorem SceneFree.failsAlone {p : Parser ρ β} (hp : SceneFree p) : FailsAlone p :=
  fun _ _ _ h => ⟨hp.scene_eq h, hp.run_inScene h⟩

/-- A body breaks off alike in other scenes if its lines fail so. -/
theorem BreaksOff.inScene (hnamed : ∀ b x, FailsAlone (named b x)) (h : BreaksOff named b t e w)
    (r : ρ) : w.scene = t.scene ∧ BreaksOff named b (t.inScene r) e (w.inScene r) := by
  cases h with
  | ended hend hw =>
    subst hw
    exact ⟨rfl, .ended hend rfl⟩
  | line hend hopen hline =>
    have hfails : FailsAlone (Parser.line named b (t.advance true).cursor.current) := by
      rcases line_eq_or_sceneFree named b (t.advance true).cursor.current with heq | hfree
      · rw [heq]
        exact hnamed b _
      · exact hfree.failsAlone
    obtain ⟨hscene, hruns⟩ := hfails hline
    exact ⟨hscene, .line hend hopen (hruns r)⟩

end Lines

/-- How the lines of a block describe something: what has been described so far is carried along or
stands in the scene, and everything a line gives adds to it. -/
structure Description (ρ β γ X : Type) where
  add : γ → X → γ
  carried : γ → β
  scene : γ → ρ
  /-- The scene in which it is told what lines give. -/
  around : ρ

namespace Description

variable (D : Description ρ β γ X) {gives : State ρ → List X → State ρ → Prop}
  {named : β → Token → Parser ρ β} {b : β} {g : γ} {s u w : State ρ} {e : ScriptError}

/-- What is described after a row of things has been given. -/
def after (g : γ) (given : List X) : γ := given.foldl D.add g

theorem after_append (g : γ) (given more : List X) :
    D.after g (given ++ more) = D.after (D.after g given) more :=
  List.foldl_append

/-- A line that starts with a key and is read adds what it gives. -/
def Follows (gives : State ρ → List X → State ρ → Prop) (named : β → Token → Parser ρ β) : Prop :=
  ∀ g s b u, s.scene = D.scene g →
    (named (D.carried g) s.cursor.current).run s = (.ok b, u) →
    ∃ given, gives (s.inScene D.around) given (u.inScene D.around) ∧
      b = D.carried (D.after g given) ∧ u.scene = D.scene (D.after g given)

variable {D} (hfollows : D.Follows gives named)
include hfollows

theorem line_gives (hs : s.scene = D.scene g)
    (h : (line named (D.carried g) s.cursor.current).run s = (.ok b, u)) :
    ∃ given, LineGives gives (s.inScene D.around) given (u.inScene D.around) ∧
      b = D.carried (D.after g given) ∧ u.scene = D.scene (D.after g given) := by
  unfold line at h
  split at h
  · rename_i hkind
    obtain ⟨_, v, hrun, h⟩ := run_bind_eq_ok h
    cases h
    have hfree : SceneFree (ρ := ρ) variableDefinition := variableDefinition_composed
    exact ⟨[], .definition hkind (hfree.run_inScene hrun _), rfl, (hfree.scene_eq hrun).trans hs⟩
  · rename_i hkind
    split at h
    · rename_i htext
      obtain ⟨_, v, hrun, h⟩ := run_bind_eq_ok h
      cases h
      have hfree : SceneFree (ρ := ρ) discardedBlock := discardedBlock_composed
      have hname : s.cursor.current.isName "discard" := Token.isName_iff.2 ⟨hkind, htext⟩
      exact ⟨[], .discarded hname (hfree.run_inScene hrun _), rfl, (hfree.scene_eq hrun).trans hs⟩
    · rename_i htext
      obtain ⟨given, hgives, hafter⟩ := hfollows g s b u hs h
      exact ⟨given, .named hkind htext hgives, hafter⟩
  · cases h

/-- **A block that is read leaves what its lines give, added up in order.** -/
theorem block_gives (hs : s.scene = D.scene g)
    (h : (blockBody named (D.carried g)).run s = (.ok b, w)) :
    ∃ given, BlockGives gives (s.inScene D.around) given (w.inScene D.around) ∧
      b = D.carried (D.after g given) ∧ w.scene = D.scene (D.after g given) := by
  refine lines_induction (motive := fun c s => ∀ g, c = D.carried g → s.scene = D.scene g →
    ∃ given, BlockGives gives (s.inScene D.around) given (w.inScene D.around) ∧
      b = D.carried (D.after g given) ∧ w.scene = D.scene (D.after g given)) ?_ ?_ h g rfl hs
  · rintro c s hclose rfl rfl g rfl hs
    exact ⟨[], ⟨_, .nil, hclose, rfl⟩, rfl, hs⟩
  · rintro c s c' u hend - hline ih g rfl hs
    obtain ⟨given, hgiven, rfl, hu⟩ := line_gives hfollows (s := s.advance true) hs hline
    obtain ⟨more, ⟨t, hmore, hclose, hw⟩, hb, hscene⟩ := ih _ rfl hu
    refine ⟨given ++ more, ⟨t, .line hend hgiven hmore, hclose, hw⟩, ?_, ?_⟩
    · rw [after_append, hb]
    · rw [after_append, hscene]

/-- **A block that fails has read some lines**, and breaks off in what they leave. -/
theorem block_fails (hs : s.scene = D.scene g)
    (h : (blockBody named (D.carried g)).run s = (.error e, w)) :
    ∃ given t, LinesGive gives (s.inScene D.around) given (t.inScene D.around) ∧
      t.scene = D.scene (D.after g given) ∧
      BreaksOff named (D.carried (D.after g given)) t e w := by
  change runOverTokens _ _ (D.carried g) s = _ at h
  generalize hc : D.carried g = c at h
  induction c, s using loop_induction (lineOrClose (.symbol .rightBrace) named) generalizing g with
  | atEnd c s hend =>
    rw [runOverTokens_atEnd hend] at h
    refine ⟨[], s, .nil, hs, .ended hend ?_⟩
    unfold closeAtEnd at h
    split at h <;> cases h
    rfl
  | more c s c' u hend hbody ih =>
    rw [runOverTokens_more hend hbody] at h
    unfold lineOrClose at hbody
    split at hbody
    · cases hbody
    obtain ⟨_, v, hline, hbody⟩ := run_bind_eq_ok hbody
    cases hbody
    cases hc
    obtain ⟨given, hgiven, rfl, hu⟩ := line_gives hfollows (s := s.advance true) hs hline
    obtain ⟨more, t, hmore, hscene, hbreaks⟩ := ih hu rfl h
    rw [← after_append] at hscene hbreaks
    exact ⟨given ++ more, t, .line hend hgiven hmore, hscene, hbreaks⟩
  | done c s c' u hend hbody =>
    rw [runOverTokens_done hend hbody] at h
    cases h
  | error c s e' u hend hbody =>
    rw [runOverTokens_error hend hbody] at h
    cases h
    cases hc
    unfold lineOrClose at hbody
    split at hbody
    · cases hbody
    · rename_i hopen
      refine ⟨[], s, .nil, hs, .line hend hopen ?_⟩
      rw [run_bind] at hbody
      split at hbody
      · cases hbody
      · rename_i hline
        cases hbody
        exact hline

end Description

end Parser

/-! ## Lines that set fields -/

namespace Fields

variable {β : Type}

/-- A line of a block: the key that opens it, how the value after the key is read, and what it
gives. -/
structure Line (F : Fields β) where
  key : String
  Value : Type
  reader : ValueReader Value
  gives : Value → List F.Setting

variable {F : Fields β}

/-- A line that sets one field. -/
def Line.sets (key : String) (f : F.Field) (reader : ValueReader (F.Value f)) : F.Line :=
  ⟨key, F.Value f, reader, fun v => [⟨f, v⟩]⟩

/-- The entry of a line in the table of a block. -/
def Line.attribute (l : F.Line) : String × Attribute β :=
  (l.key, l.reader.toAttribute fun v b => F.after b (l.gives v))

/-- What the line gives whose key has just been read. -/
inductive Gives {ρ : Type} (lines : List F.Line) (s : Parser.State ρ) :
    List F.Setting → Parser.State ρ → Prop
  | line {l : F.Line} {v : l.Value} {u : Parser.State ρ} : l ∈ lines →
      s.cursor.current.text = l.key → l.reader.parser.run s = (.ok v, u) →
      Gives lines s (l.gives v) u

end Fields

namespace Parser

variable {ρ β : Type} {F : Fields β} {lines : List F.Line} {s u : State ρ}

/-- What the table of a block reads makes the change that the line gives. -/
theorem readLine_gives {change : β → β}
    (h : (Attribute.readLine (lines.map (·.attribute)) s.cursor.current).run s = (.ok change, u))
    (r : ρ) : ∃ given, Fields.Gives lines (s.inScene r) given (u.inScene r) ∧
      u.scene = s.scene ∧ change = (F.after · given) := by
  unfold Attribute.readLine at h
  split at h
  · rename_i a hlookup
    obtain ⟨l, hl, hentry⟩ := List.mem_map.1 (mem_of_lookup hlookup)
    obtain ⟨hkey, rfl⟩ := Prod.mk.inj hentry
    rw [l.reader.run_toAttribute] at h
    obtain ⟨v, _, hrun, h⟩ := run_bind_eq_ok h
    cases h
    exact ⟨l.gives v, .line hl hkey.symm (l.reader.sceneFree.run_inScene hrun r),
      l.reader.sceneFree.scene_eq hrun, rfl⟩
  · cases h

/-- A line that changes the scene by what it reads. -/
theorem readLine_modify_gives {attributes : Attributes β} {change : (β → β) → ρ → ρ}
    (hattributes : attributes = lines.map (·.attribute))
    (h : (Attribute.readLine attributes s.cursor.current >>= fun f => modify (change f)).run s =
      (.ok (), u)) (r : ρ) :
    ∃ given, Fields.Gives lines (s.inScene r) given (u.inScene r) ∧
      u.scene = change (F.after · given) s.scene := by
  subst hattributes
  obtain ⟨f, v, hread, h⟩ := run_bind_eq_ok h
  cases h
  obtain ⟨given, hgives, hscene, rfl⟩ := readLine_gives hread r
  exact ⟨given, hgives, congrArg (change _) hscene⟩

/-! ## Headers -/

section Headers

variable {σ : Type} {kind : ResourceKind} {s u : State (Scene σ)} {name : String}

/-- The header of a declaration whose keyword has just been read: a quoted name that is new for its
kind, and the `{`. -/
def Headed (kind : ResourceKind) (s : State (Scene σ)) (name : String) (u : State (Scene σ)) :
    Prop :=
  ∃ v, (newName kind).run s = (.ok name, v) ∧ (expect .leftBrace).run v = (.ok (), u)

/-- Reads such a header and then does something to the scene. -/
def headerThen (kind : ResourceKind) (change : String → Scene σ → Scene σ) :
    Parser (Scene σ) String := do
  let name ← newName kind
  expect .leftBrace
  modify (change name)
  return name

theorem refuseDuplicate_run (kind : ResourceKind) (t : Token) (s : State (Scene σ)) :
    (refuseDuplicate kind t).run s =
      (if s.scene.declares kind t.text then
        .error (.placed t.position (.duplicateDeclaration kind t.text)) else .ok (), s) := by
  simp only [refuseDuplicate, run_bind, inspect, build, failIf]
  split <;> rfl

/-- A name is new in another scene where it is not taken either. -/
theorem newName_run_inScene (h : (newName kind).run s = (.ok name, u)) {r : Scene σ}
    (hnew : name ∉ r.names kind) : (newName kind).run (s.inScene r) = (.ok name, u.inScene r) := by
  obtain ⟨t, v, hname, h⟩ := run_bind_eq_ok h
  obtain ⟨_, x, hrefuse, h⟩ := run_bind_eq_ok h
  cases h
  rw [refuseDuplicate_run] at hrefuse
  split at hrefuse <;> cases hrefuse
  have hfree : SceneFree (ρ := Scene σ) declaredName := declaredName_composed
  have hpass : (refuseDuplicate kind t).run (u.inScene r) = (.ok (), u.inScene r) := by
    rw [refuseDuplicate_run]
    exact Prod.ext (if_neg (by rwa [State.inScene_scene, Resources.declares_iff])) rfl
  rw [newName, run_bind_of_ok (hfree.run_inScene hname r), run_bind_of_ok hpass]
  rfl

namespace Headed

theorem not_mem (h : Headed kind s name u) : name ∉ s.scene.names kind := by
  obtain ⟨v, hname, -⟩ := h
  exact ((newName_commits kind).ok hname).2

theorem scene_eq (h : Headed kind s name u) : u.scene = s.scene := by
  obtain ⟨v, hname, hbrace⟩ := h
  exact (scene_eq_of_run (expect_composed _) hbrace).trans ((newName_commits kind).ok hname).1

/-- The header leaves the scene that it starts in. -/
theorem inScene_self (h : Headed kind s name u) : Headed kind s name (u.inScene s.scene) := by
  rwa [State.inScene_of_eq h.scene_eq]

theorem inScene (h : Headed kind s name u) {r : Scene σ} (hnew : name ∉ r.names kind) :
    Headed kind (s.inScene r) name (u.inScene r) := by
  obtain ⟨v, hname, hbrace⟩ := h
  have hfree : SceneFree (ρ := Scene σ) (expect .leftBrace) := expect_composed _
  exact ⟨v.inScene r, newName_run_inScene hname hnew, hfree.run_inScene hbrace r⟩

theorem run_headerThen (h : Headed kind s name u) (change : String → Scene σ → Scene σ) :
    (headerThen kind change).run s = (.ok name, u.inScene (change name s.scene)) := by
  have hscene := h.scene_eq
  obtain ⟨v, hname, hbrace⟩ := h
  rw [headerThen, run_bind_of_ok hname, run_bind_of_ok hbrace, ← hscene]
  rfl

theorem of_run {f : String → Scene σ → Scene σ}
    (h : (headerThen kind f).run s = (.ok name, u)) :
    Headed kind s name (u.inScene s.scene) ∧ u.scene = f name s.scene := by
  obtain ⟨_, v, hname, h⟩ := run_bind_eq_ok h
  obtain ⟨_, x, hbrace, h⟩ := run_bind_eq_ok h
  cases h
  have hheaded : Headed kind s name x := ⟨v, hname, hbrace⟩
  exact ⟨hheaded.inScene_self, congrArg (f name) hheaded.scene_eq⟩

end Headed

end Headers

end Parser

end MaterialScript
