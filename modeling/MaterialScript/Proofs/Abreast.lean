/-
Runs over the same tokens in scenes that differ.

`State.Abreast ns ns' rel s t`: two states stand at the same place of their scripts
with the same variables; what they have told starts with `ns` and `ns'` and goes on
alike, and `rel` relates their scenes. A parser that does the same to such scenes
keeps the runs abreast (`Composed.abreast`). So do all of a script's declarations
where the scenes differ in one resource: the lines of a texture to its end
(`finishTexture_abreast`), those of a vertex attribute whatever they start from
(`componentLines_endAlike`), and shaders that copy a format the scenes differ in
(`script_copies`).
-/
import MaterialScript.Proofs.BlockAcceptance
import MaterialScript.Proofs.Differences
import MaterialScript.Proofs.OpenBlocks

namespace MaterialScript

namespace Cursor

/-- What a step passes does not depend on what has been passed before. -/
theorem passOver_eq (skipped : Token → Bool) (passed ts : List Token) :
    passOver skipped passed ts =
      ((passOver skipped [] ts).1 ++ passed, (passOver skipped [] ts).2) := by
  induction ts generalizing passed with
  | nil => rfl
  | cons t ts ih =>
    unfold passOver
    split
    · rw [ih (t :: passed), ih [t]]
      simp
    · rfl

theorem passOver_ne_nil (skipped : Token → Bool) {ts : List Token} (h : ts ≠ []) :
    (passOver skipped [] ts).1 ≠ [] := by
  obtain ⟨t, ts, rfl⟩ := List.exists_cons_of_ne_nil h
  unfold passOver
  split
  · rw [passOver_eq]
    simp
  · simp

end Cursor

namespace Parser

variable {ρ α β : Type} {rel : ρ → ρ → Prop} {ns ns' : Journal} {s t u v : State ρ}

/-! ## Two states at the same place -/

/-- The states have the same to come and the same variables, have told alike after `ns` and `ns'`,
and are in scenes that `rel` relates. -/
structure State.Beside (ns ns' : Journal) (rel : ρ → ρ → Prop) (s t : State ρ) : Prop where
  rest : t.cursor.rest = s.cursor.rest
  lineBreaks : t.cursor.lineBreaksCount = s.cursor.lineBreaksCount
  bindings : t.bindings = s.bindings
  journal : ∃ more, s.journal = ns ++ more ∧ t.journal = ns' ++ more
  scene : rel s.scene t.scene

/-- And they are on the same token. -/
structure State.Abreast (ns ns' : Journal) (rel : ρ → ρ → Prop) (s t : State ρ) : Prop
    extends s.Beside ns ns' rel t where
  current : t.cursor.current = s.cursor.current

namespace State.Beside

/-- Something else is done to each of the scenes. -/
theorem build {rel' : ρ → ρ → Prop} {r r' : ρ} (h : s.Beside ns ns' rel t) (hr : rel' r r') :
    State.Beside ns ns' rel' { s with scene := r } { t with scene := r' } :=
  { h with scene := hr }

theorem skipped_eq (h : s.Beside ns ns' rel t) (b : Bool) :
    t.cursor.skipped b = s.cursor.skipped b := by
  funext x
  rw [Cursor.skipped, Cursor.skipped, Cursor.skips, Cursor.skips, h.lineBreaks]

theorem advance (h : s.Beside ns ns' rel t) (b : Bool) :
    (s.advance b).Beside ns ns' rel (t.advance b) := by
  refine { h with rest := ?_ }
  simp only [State.advance, Cursor.advance, h.rest, h.skipped_eq]
  rw [Cursor.passOver_eq, Cursor.passOver_eq _ s.cursor.passed]

/-- Where there is something to come, a step leads both to it. -/
theorem abreast_advance (h : s.Beside ns ns' rel t) (hrest : s.cursor.rest ≠ []) (b : Bool) :
    (s.advance b).Abreast ns ns' rel (t.advance b) := by
  refine ⟨h.advance b, ?_⟩
  have hpassed := Cursor.passOver_ne_nil (s.cursor.skipped b) hrest
  simp only [State.advance, Cursor.advance, Cursor.current, h.rest, h.skipped_eq]
  rw [Cursor.passOver_eq, Cursor.passOver_eq _ s.cursor.passed]
  obtain ⟨x, xs, hx⟩ := List.exists_cons_of_ne_nil hpassed
  simp [hx]

theorem step (h : s.Beside ns ns' rel t) (hrest : s.cursor.rest ≠ []) :
    SameStep (State.Abreast ns ns' rel) s t := by
  have hadvance := h.abreast_advance hrest true
  refine ⟨hadvance, hadvance.current, ?_⟩
  rw [State.AtEnd, State.AtEnd, hadvance.current, h.rest]

end State.Beside

namespace State.Abreast

theorem mono {rel' : ρ → ρ → Prop} (h : s.Abreast ns ns' rel t)
    (hrel : ∀ r r', rel r r' → rel' r r') : s.Abreast ns ns' rel' t :=
  ⟨{ h.toBeside with scene := hrel _ _ h.scene }, h.current⟩

/-- Something else is done to each of the scenes. -/
theorem build {rel' : ρ → ρ → Prop} {r r' : ρ} (h : s.Abreast ns ns' rel t) (hr : rel' r r') :
    State.Abreast ns ns' rel' { s with scene := r } { t with scene := r' } :=
  ⟨h.toBeside.build hr, h.current⟩

theorem advance (h : s.Abreast ns ns' rel t) (b : Bool) :
    (s.advance b).Abreast ns ns' rel (t.advance b) := by
  by_cases hrest : s.cursor.rest = []
  · refine ⟨h.toBeside.advance b, ?_⟩
    have hstay : ∀ c : Cursor, c.rest = [] → (c.advance b).current = c.current := by
      intro c hc
      simp [Cursor.advance, Cursor.current, hc, Cursor.passOver]
    change (t.cursor.advance b).current = (s.cursor.advance b).current
    rw [hstay _ hrest, hstay _ (h.rest.trans hrest), h.current]
  · exact h.toBeside.abreast_advance hrest b

theorem step (h : s.Abreast ns ns' rel t) : SameStep (State.Abreast ns ns' rel) s t := by
  have hadvance := h.advance true
  refine ⟨hadvance, hadvance.current, ?_⟩
  rw [State.AtEnd, State.AtEnd, hadvance.current, h.rest]

theorem lockstep {looks : Prop} :
    Lockstep (Respects rel) looks (State.Abreast ns ns' rel) fun _ => False where
  onward _ h := h
  escaped _ h := h
  current h := h.current
  lineBreaks h := h.lineBreaks
  bindings h := h.bindings ▸ .refl _
  advance h b := .inl (h.advance b)
  atEnd h _ := h.step.atEnd
  peek _ _ _ h := .inl (h.advance true).current
  setLineBreaks h _ := ⟨{ h.toBeside with lineBreaks := rfl }, h.current⟩
  note := by
    intro s t h notices
    obtain ⟨more, hs, ht⟩ := h.journal
    exact ⟨{ h.toBeside with journal := ⟨more ++ notices, by simp [hs], by simp [ht]⟩ }, h.current⟩
  setVariable h name value :=
    ⟨{ h.toBeside with bindings := congrArg (·.set name value) h.bindings }, h.current⟩
  build hf _ _ h := ⟨(hf _ _ h.scene).1, h.build (hf _ _ h.scene).2⟩

end State.Abreast

/-! ## Runs -/

theorem Composed.abreast {p : Parser ρ α} (hp : Composed (Respects rel) True p)
    (h : s.Abreast ns ns' rel t) : SameRun (State.Abreast ns ns' rel) (p.run s) (p.run t) :=
  (hp.lockstep State.Abreast.lockstep h).resolve_right id

theorem SameRun.mono {R R' : State ρ → State ρ → Prop} {x y : Except ScriptError α × State ρ}
    (h : SameRun R x y) (himp : ∀ u v, R u v → R' u v) : SameRun R' x y :=
  ⟨h.1, himp _ _ h.2⟩

/-- What goes on from related states may relate its ends otherwise. -/
theorem SameRun.bind {R R' : State ρ → State ρ → Prop} {p : Parser ρ α} {f : α → Parser ρ β}
    (hp : SameRun R (p.run s) (p.run t)) (himp : ∀ u v, R u v → R' u v)
    (hf : ∀ a u v, R u v → SameRun R' ((f a).run u) ((f a).run v)) :
    SameRun R' ((p >>= f).run s) ((p >>= f).run t) := by
  rcases hrun : p.run s with ⟨e | a, u⟩
  · rw [hrun] at hp
    obtain ⟨v, hv, huv⟩ := hp.eq_right
    rw [run_bind_of_error hrun, run_bind_of_error hv]
    exact ⟨rfl, himp u v huv⟩
  · rw [hrun] at hp
    obtain ⟨v, hv, huv⟩ := hp.eq_right
    rw [run_bind_of_ok hrun, run_bind_of_ok hv]
    exact hf a u v huv

/-- Lines keep the runs abreast if each of them does. -/
theorem lines_abreast {closing : TokenKind} {named : β → Token → Parser ρ β}
    (hnamed : ∀ b x {s t : State ρ}, s.Abreast ns ns' rel t →
      SameRun (State.Abreast ns ns' rel) ((named b x).run s) ((named b x).run t))
    (b : β) (h : SameStep (State.Abreast ns ns' rel) s t) :
    SameRun (State.Abreast ns ns' rel) ((lines closing named b).run s)
      ((lines closing named b).run t) := by
  have line : ∀ b x {s t : State ρ}, s.Abreast ns ns' rel t →
      SameRun (State.Abreast ns ns' rel) ((line named b x).run s) ((line named b x).run t) := by
    intro b x s t h
    unfold Parser.line
    split
    · exact (variableDefinition_composed.abreast h).bind (fun _ _ => id) fun _ _ _ h => ⟨rfl, h⟩
    · split
      · exact (discardedBlock_composed.abreast h).bind (fun _ _ => id) fun _ _ _ h => ⟨rfl, h⟩
      · exact hnamed b x h
    · exact ⟨rfl, h⟩
  refine (runOverTokens_sameRun (E := fun _ => False) (fun _ h => h) (fun h => .inl h.step)
    (fun b {s t} h => .inl ?_) (fun b x {s t} h => .inl ?_) b (.inl h)).resolve_right id
  · unfold lineOrClose
    split
    · exact ⟨rfl, h⟩
    · exact (line b _ h).bind (fun _ _ => id) fun _ _ _ h => ⟨rfl, h⟩
  · unfold closeAtEnd
    split <;> exact ⟨rfl, h⟩

/-- Two runs end in the same state, both with an answer or with the same error. -/
inductive EndAlike : Except ScriptError α × State ρ → Except ScriptError α × State ρ → Prop
  | ok (a a' : α) (u : State ρ) : EndAlike (.ok a, u) (.ok a', u)
  | error (e : ScriptError) (u : State ρ) : EndAlike (.error e, u) (.error e, u)

/-- Two rounds of a loop end in the same state, and the loop goes on or stops in both. -/
inductive RoundAlike : Except ScriptError (Progress α β) × State ρ →
    Except ScriptError (Progress α β) × State ρ → Prop
  | more (a a' : α) (u : State ρ) : RoundAlike (.ok (.more a), u) (.ok (.more a'), u)
  | done (b b' : β) (u : State ρ) : RoundAlike (.ok (.done b), u) (.ok (.done b'), u)
  | error (e : ScriptError) (u : State ρ) : RoundAlike (.error e, u) (.error e, u)

namespace RoundAlike

variable {a : α} {b : β} {e : ScriptError} {y : Except ScriptError (Progress α β) × State ρ}

theorem of_more (h : RoundAlike (.ok (.more a), u) y) : ∃ a', y = (.ok (.more a'), u) := by
  cases h
  exact ⟨_, rfl⟩

theorem of_done (h : RoundAlike (.ok (.done b), u) y) : ∃ b', y = (.ok (.done b'), u) := by
  cases h
  exact ⟨_, rfl⟩

theorem of_error (h : RoundAlike (.error e, u) y) : y = (.error e, u) := by
  cases h
  rfl

end RoundAlike

/-- Loops end alike if their rounds do, whatever they carry. -/
theorem runOverTokens_endAlike {body : α → Token → Parser ρ (Progress α β)}
    {finish : α → Token → Parser ρ β}
    (hbody : ∀ a a' x s, RoundAlike ((body a x).run s) ((body a' x).run s))
    (hfinish : ∀ a a' x s, EndAlike ((finish a x).run s) ((finish a' x).run s)) (a a' : α)
    (s : State ρ) : EndAlike (runOverTokens body finish a s) (runOverTokens body finish a' s) := by
  induction a, s using loop_induction body generalizing a' with
  | atEnd a s hend =>
    rw [runOverTokens_atEnd hend, runOverTokens_atEnd hend]
    exact hfinish a a' _ _
  | more a s b u hend hrun ih =>
    have hround := hbody a a' (s.advance true).cursor.current (s.advance true)
    rw [hrun] at hround
    obtain ⟨b', hrun'⟩ := hround.of_more
    rw [runOverTokens_more hend hrun, runOverTokens_more hend hrun']
    exact ih b'
  | done a s b u hend hrun =>
    have hround := hbody a a' (s.advance true).cursor.current (s.advance true)
    rw [hrun] at hround
    obtain ⟨b', hrun'⟩ := hround.of_done
    rw [runOverTokens_done hend hrun, runOverTokens_done hend hrun']
    exact .ok b b' u
  | error a s e u hend hrun =>
    have hround := hbody a a' (s.advance true).cursor.current (s.advance true)
    rw [hrun] at hround
    rw [runOverTokens_error hend hrun, runOverTokens_error hend hround.of_error]
    exact .error e u

/-- Lines end alike if each of them does, whatever they carry. -/
theorem lines_endAlike {closing : TokenKind} {named : β → Token → Parser ρ β}
    (hnamed : ∀ b b' x s, EndAlike ((named b x).run s) ((named b' x).run s)) (b b' : β)
    (s : State ρ) : EndAlike ((lines closing named b).run s) ((lines closing named b').run s) := by
  -- a line that carries nothing on
  have plain : ∀ (p : Parser ρ Unit) (b b' : β) (s : State ρ),
      EndAlike ((p >>= fun _ => pure b).run s) ((p >>= fun _ => pure b').run s) := by
    intro p b b' s
    rw [run_bind, run_bind]
    rcases p.run s with ⟨e | _, u⟩
    · exact .error e u
    · exact .ok b b' u
  have line : ∀ b b' x s, EndAlike ((line named b x).run s) ((line named b' x).run s) := by
    intro b b' x s
    unfold Parser.line
    split
    · exact plain _ b b' s
    · split
      · exact plain _ b b' s
      · exact hnamed b b' x s
    · exact .error _ s
  refine runOverTokens_endAlike (fun b b' x s => ?_) (fun b b' x s => ?_) b b' s
  · unfold lineOrClose
    split
    · exact .done b b' s
    · rw [run_bind, run_bind]
      have hline := line b b' x s
      generalize (Parser.line named b x).run s = y, (Parser.line named b' x).run s = y' at hline
      cases hline with
      | ok c c' u => exact .more c c' u
      | error e u => exact .error e u
  · unfold closeAtEnd
    split
    · exact .ok b b' s
    · exact .error _ s

end Parser

/-! ## Drafts of textures -/

/-- The same scene but for what a texture block has said, where both name the same image file. -/
def Scene.DraftsApart {σ : Type} (s s' : Scene σ) : Prop :=
  ∃ draft, s' = s.changeTexture (fun _ => draft) ∧
    draft.settings.fileName = s.drafts.texture.settings.fileName

/-- Drafts that name the same file go on to do so. -/
def TextureDraft.NamesAlike (change : TextureDraft → TextureDraft) : Prop :=
  ∀ d d', d'.settings.fileName = d.settings.fileName →
    (change d').settings.fileName = (change d).settings.fileName

theorem TextureDraft.attributes_nameAlike :
    ∀ e ∈ TextureDraft.attributes, e.2.All TextureDraft.NamesAlike := by
  intro e he
  simp only [TextureDraft.attributes, List.mem_cons, List.not_mem_nil, or_false] at he
  rcases he with rfl | rfl | rfl | rfl | rfl | rfl | rfl | rfl | rfl | rfl | rfl
  · exact fun _ _ _ _ => rfl
  all_goals first
    | exact Attribute.all_ofVocabulary fun _ _ _ h => h
    | exact fun _ _ _ h => h

theorem Scene.DraftsApart.change {σ : Type} {change : TextureDraft → TextureDraft}
    (hchange : TextureDraft.NamesAlike change) :
    Parser.Respects DraftsApart Unit fun s : Scene σ => ((), s.changeTexture change) := by
  rintro s _ ⟨draft, rfl, hname⟩
  exact ⟨rfl, change draft, rfl, hchange _ _ hname⟩

theorem Scene.DraftsApart.of_changes {σ : Type} {f f' : TextureDraft → TextureDraft}
    (h : ∀ d, (f' d).settings.fileName = (f d).settings.fileName) (s : Scene σ) :
    (s.changeTexture f).DraftsApart (s.changeTexture f') :=
  ⟨f' s.drafts.texture, rfl, h _⟩

/-- Whether a texture can be made depends on the file that its draft names only. -/
theorem TextureDraft.make?_of_fileName_eq {d d' : TextureDraft}
    (h : d'.settings.fileName = d.settings.fileName) (r : Recorder) :
    (d'.make? r).1.isSome = (d.make? r).1.isSome ∧ (d'.make? r).2 = (d.make? r).2 := by
  unfold make?
  rw [h]
  split
  · exact ⟨rfl, rfl⟩
  · exact ⟨by simp, rfl⟩

theorem Scene.addTexture_apart {d d' : TextureDraft}
    (h : d'.settings.fileName = d.settings.fileName) (name : String) (s : Scene Recorder) :
    (s.addTexture name d).1 = (s.addTexture name d').1 ∧
      (s.addTexture name d).2.Apart .texture name none (s.addTexture name d').2 := by
  obtain ⟨hmade, hsystem⟩ := d.make?_of_fileName_eq h s.system
  unfold addTexture
  generalize d.make? s.system = made, d'.make? s.system = made' at hmade hsystem ⊢
  rcases made with ⟨_ | t, r⟩ <;> rcases made' with ⟨_ | t', r'⟩
  · obtain rfl : r' = r := hsystem
    exact ⟨rfl, .refl _⟩
  · cases hmade
  · cases hmade
  · obtain rfl : r' = r := hsystem
    refine ⟨rfl, ?_⟩
    have hrefl : s.Apart .texture name none s := .refl s
    exact { hrefl with textures := hrefl.textures.insert (.inl ⟨rfl, rfl⟩), system := rfl }

namespace Parser

variable {ρ α β : Type}

theorem eq_of_run {p q : Parser ρ α} (h : ∀ s, p.run s = q.run s) : p = q := by
  obtain ⟨run, _⟩ := p
  obtain ⟨run', _⟩ := q
  obtain rfl : run = run' := funext h
  rfl

/-- What goes on from a line may rely on what the attributes do. -/
theorem readLine_bind_composed {may : ∀ α : Type, (ρ → α × ρ) → Prop} {K : (β → β) → Prop}
    {attributes : Attributes β} (hattributes : ∀ e ∈ attributes, e.2.All K)
    {f : (β → β) → Parser ρ α} (hf : ∀ change, K change → Composed may True (f change))
    (t : Token) : Composed may True (Attribute.readLine attributes t >>= f) := by
  have value : ∀ {γ : Type} {p : Parser ρ γ} {set : γ → β → β}, Composed may True p →
      (∀ v, K (set v)) → Composed may True ((do return set (← p)) >>= f) := by
    intro γ p set hp hset
    rw [eq_of_run (run_bind_assoc _ _ _)]
    exact .bind hp fun v => hf _ (hset v)
  unfold Attribute.readLine
  split
  · rename_i a hlookup
    have ha := hattributes _ (mem_of_lookup hlookup)
    cases a with
    | color set => exact value color_composed ha
    | number set => exact value number_composed ha
    | flag set => exact value flag_composed ha
    | text set => exact value text_composed ha
    | keyword changes =>
      have hmeaning : ∀ word, K (changes.resolve word).1 := by
        intro word
        rcases changes.resolve_cases word with h | ⟨e, he, h⟩
        · exact h ▸ ha.1
        · exact h ▸ ha.2 e he
      rw [Attribute.read, keyword, eq_of_run (run_bind_assoc _ _ _)]
      refine .bind word_composed fun word => ?_
      rw [eq_of_run (run_bind_assoc _ _ _)]
      exact .bind (.note _) fun _ => hf _ (hmeaning word)
  · rw [show unexpectedName t >>= f = unexpectedName t from eq_of_run fun _ => rfl]
    exact unexpectedName_composed t

section Textures

variable {σ : Type}

theorem filterLine_draftsApart (b : Unit) (t : Token) :
    Composed (Respects (Scene.DraftsApart (σ := σ))) True (filterLine b t) :=
  .bind (Attribute.readLine_composed _ t) fun _ => .build (Scene.DraftsApart.change fun _ _ h => h)

theorem textureLine_draftsApart (b : Unit) (t : Token) :
    Composed (Respects (Scene.DraftsApart (σ := σ))) True (textureLine b t) := by
  unfold textureLine
  split
  · exact block_composed filterLine_draftsApart ()
  · exact readLine_bind_composed TextureDraft.attributes_nameAlike
      (fun _ hchange => .build (Scene.DraftsApart.change hchange)) t

end Textures

section Recorded

variable {ns ns' : Journal} {name : String} {s t : State (Scene Recorder)}

/-- Both drafts make a texture, or neither does. -/
theorem finishTexture_abreast (name : String) (h : s.Abreast ns ns' Scene.DraftsApart t) :
    SameRun (State.Abreast ns ns' (Scene.Apart .texture name none)) ((finishTexture name).run s)
      ((finishTexture name).run t) := by
  obtain ⟨draft, hscene, hfile⟩ := h.scene
  have hstart : t.scene.startTexture = s.scene.startTexture := by rw [hscene]; rfl
  have hdraft : t.scene.drafts.texture = draft := by rw [hscene]; rfl
  obtain ⟨hmade, hapart⟩ := Scene.addTexture_apart hfile name s.scene.startTexture
  rw [finishTexture_run, finishTexture_run, hstart, hdraft]
  refine ⟨?_, h.build hapart⟩
  simp only [hmade, hfile, h.current]

/-- The lines of an attribute are read alike, whatever they start from. -/
theorem componentLines_endAlike {σ : Type} (a a' : VertexAttribute) (s : State (Scene σ)) :
    EndAlike ((blockBody componentLine a).run s) ((blockBody componentLine a').run s) := by
  refine lines_endAlike (fun a a' x s => ?_) a a' s
  unfold componentLine
  rw [run_bind, run_bind]
  rcases (Attribute.readLine VertexAttribute.attributes x).run s with ⟨e | change, u⟩
  · exact .error e u
  · exact .ok _ _ u

/-! ## Scripts -/

theorem script_apart {kind : ResourceKind} (hkind : kind ≠ .vertexFormat) :
    Composed (Respects (Scene.Apart kind name none)) True script :=
  script_composed.mono fun _ _ hf => by
    cases hf with
    | line hf => exact lineChange_apart hf
    | declaration hf => exact declarationChange_apart hkind hf

section Copies

variable {f f' : VertexFormat}

theorem formatName_copies :
    Composed (Respects (Scene.CopiedApart name f f')) True formatName := by
  refine .bind next_composed fun x => ?_
  split
  · exact .pure _
  split
  · exact .bind (.build fun s s' h => ⟨(h.knows_eq x.text).symm, h⟩) fun _ =>
      .bind (noteIf_composed _ _) fun _ => .bind (expect_composed _) fun _ => .pure _
  · exact unexpected_composed x

theorem shaderHeader_copies (n : Token) :
    Composed (Respects (Scene.CopiedApart name f f')) True (shaderHeader n) := by
  rw [eq_of_run (shaderHeader_run n)]
  refine .bind ((refuseDuplicate_enters _ n).mono fun _ _ => entryChange_copiedApart) fun _ =>
    .bind formatName_copies fun format => ?_
  exact .build fun s s' h => ⟨rfl, h.addShader n.text format⟩

theorem shader_copies : Composed (Respects (Scene.CopiedApart name f f')) True shader := by
  refine .bind declaredName_composed fun n =>
    .bind (.build (entryChange_copiedApart .supportsShaders)) fun supported => ?_
  split
  · exact .bind (.note _) fun _ => skipBlock_composed
  · exact .bind (shaderHeader_copies n) fun _ =>
      (lines_composed dialectBlock_composed _ ()).mono fun _ _ => lineChange_copiedApart

/-- Declarations of other resources, whether or not the scenes know where they differ. -/
theorem declaration_apart {kind : ResourceKind} {copies : Option (VertexFormat × VertexFormat)}
    {x : Token} (hother : x.text ≠ "shader") (b : Unit) :
    Composed (Respects (Scene.Apart kind name copies)) True (declaration b x) := by
  have header : ∀ {α : Type} {p : Parser (Scene Recorder) α}, Composed EntryChange True p →
      Composed (Respects (Scene.Apart kind name copies)) True p := fun hp =>
    hp.mono fun _ _ => entryChange_apart
  have body : ∀ {k : ResourceKind} {p : Parser (Scene Recorder) Unit},
      Composed (LineChange k) True p →
      Composed (Respects (Scene.Apart kind name copies)) True p := fun hp =>
    hp.mono fun _ _ => lineChange_apart
  unfold declaration
  split
  · exact .bind (header materialHeader_enters) fun _ =>
      body (lines_composed materialLine_composed _ ())
  · exact absurd ‹_› hother
  · exact .bind (header vertexFormatHeader_enters) fun _ =>
      body (lines_composed attributeBlock_composed _ ())
  · exact .bind (header textureHeader_enters) fun n =>
      .bind (body (lines_composed textureLine_composed _ ())) fun _ =>
      header (finishTexture_enters n)
  · exact .bind (header textureLayerHeader_enters) fun _ =>
      body (lines_composed layerLine_composed _ ())
  · exact unexpectedName_composed x

theorem declaration_copies (b : Unit) (x : Token)
    (h : s.Abreast ns ns' (Scene.CopiedApart name f f') t) :
    SameRun (State.Abreast ns ns' (Scene.CopiedApart name f f')) ((declaration b x).run s)
      ((declaration b x).run t) := by
  by_cases hx : x.text = "shader"
  · have hshader : declaration (σ := Recorder) b x = shader := by simp only [declaration, hx]
    rw [hshader]
    exact shader_copies.abreast h
  · obtain ⟨hanswer, hends⟩ := (declaration_apart hx b).abreast (h.mono fun _ _ h => h.apart)
    -- the format has been closed, so it stays as it is
    have hs := (declaration_grows b x s).vertexFormats.get? h.scene.left
    have ht := (declaration_grows b x t).vertexFormats.get? h.scene.right
    exact ⟨hanswer, ⟨{ hends.toBeside with scene := ⟨hends.scene, hs, ht⟩ }, hends.current⟩⟩

/-- A script goes on alike after the block of a format in which the scenes differ. -/
theorem script_copies (h : s.Abreast ns ns' (Scene.CopiedApart name f f') t) :
    SameRun (State.Abreast ns ns' (Scene.CopiedApart name f f')) (script.run s) (script.run t) :=
  lines_abreast (fun b x _ _ h => declaration_copies b x h) () h.step

end Copies

end Recorded

end Parser

end MaterialScript
