/-
Two runs that do the same up to a place in the script.

`Tandem R n`: `R` relates states that read the same while more than what stands from
the place on is left, `n` tokens. Where a parser ends before the place, it may still
have looked beyond; `Steady` parsers look ahead only for a symbol that they take, or
to choose what reads the token seen. So where one of them succeeds before the place
it does the same in both states (`Steady.repeats`). All lines are steady, and thus
both runs come to the same turns of their loops and to the same blocks
(`Turn.repeats`, `InBlock.repeats`).
-/
import MaterialScript.Proofs.Assignments
import MaterialScript.Proofs.LineBreaks
import MaterialScript.Proofs.Skips

namespace MaterialScript.Parser

variable {ρ α β : Type}

/-! ## Parsers that pass the next token -/

/-- Where the parser succeeds, it has passed the next token. -/
def Consumes (p : Parser ρ α) : Prop :=
  ∀ ⦃s : State ρ⦄ ⦃a : α⦄ ⦃u : State ρ⦄, p.run s = (.ok a, u) →
    u.cursor.rest.length ≤ (s.advance true).cursor.rest.length

theorem accept_run (symbol : Symbol) (s : State ρ) :
    (accept symbol).run s =
      if (s.cursor.peek true).isSymbol symbol then (.ok true, s.advance true)
      else (.ok false, s) := by
  rw [accept, run_bind]
  simp only [peek]
  split <;> rfl

namespace Consumes

variable {p : Parser ρ α} {f : α → Parser ρ β}

theorem of_refuses (h : Refuses p) : Consumes p := fun _ _ _ hrun => absurd hrun (@h _ _ _)

theorem bind (hp : Consumes p) : Consumes (p >>= f) := by
  intro s b u hrun
  obtain ⟨a, t, hpt, hfu⟩ := run_bind_eq_ok hrun
  exact (onward_of_run hfu).leads.length_rest_le.trans (hp hpt)

theorem next : Consumes (next : Parser ρ Token) := by
  refine bind (p := take true) fun s t u hrun => ?_
  cases hrun
  exact le_rfl

theorem overTokens {body : α → Token → Parser ρ (Progress α β)} {finish : α → Token → Parser ρ β}
    (a : α) : Consumes (overTokens body finish a) := by
  intro s b u hrun
  change runOverTokens body finish a s = _ at hrun
  by_cases hend : s.AtEnd
  · rw [runOverTokens_atEnd hend] at hrun
    exact (onward_of_run hrun).leads.length_rest_le
  · rcases hround : (body a (s.advance true).cursor.current).run (s.advance true) with
      ⟨e | a' | b', t⟩
    · rw [runOverTokens_error hend hround] at hrun
      cases hrun
    · rw [runOverTokens_more hend hround] at hrun
      have hlater : t.Onward u := onward_of_run (p := Parser.overTokens body finish a') hrun
      exact ((onward_of_run hround).trans hlater).leads.length_rest_le
    · rw [runOverTokens_done hend hround] at hrun
      cases hrun
      exact (onward_of_run hround).leads.length_rest_le

theorem skipBlock : Consumes (skipBlock : Parser ρ Unit) := bind (overTokens ())

/-- The next token is the `=` before a value, or the value passes it. -/
theorem optionalEqual (hp : Consumes p) : Consumes (optionalEqual >>= fun _ => p) := by
  intro s a u hrun
  rw [Parser.optionalEqual, run_bind_assoc, run_bind, accept_run] at hrun
  split at hrun
  · rename_i b t heq
    split at heq
    · cases heq
      exact (onward_of_run hrun).leads.length_rest_le
    · cases heq
      exact hp hrun
  · rename_i e t heq
    split at heq <;> cases heq

theorem word : Consumes (word : Parser ρ String) := optionalEqual next.bind

/-- A value that does not start on the next line starts with the next token. -/
theorem withLineBreaks {refusal : Token → Fault} (hp : Consumes p)
    (hline : ∀ s, TakesOneEqual true refusal (withLineBreaks p) s) :
    Consumes (withLineBreaks p) := by
  intro s a u hrun
  have hpassed : u.cursor.rest.length ≤
      ((s.setLineBreaks true).advance true).cursor.rest.length := by
    rcases hinner : p.run (s.setLineBreaks true) with ⟨answer, w⟩
    rw [run_withLineBreaks hinner] at hrun
    obtain ⟨rfl, rfl⟩ := Prod.mk.inj hrun
    have hw := hp hinner
    exact hw
  refine hpassed.trans ?_
  rcases hvisible : visible true s.cursor.rest with _ | ⟨t, vs⟩
  · have hskip : ∀ x ∈ s.cursor.rest, (s.setLineBreaks true).cursor.skipped true x := by
      simpa [visible, Cursor.skipped, Cursor.skips, State.setLineBreaks] using hvisible
    have hpass := Cursor.passOver_append_of_skipped hskip s.cursor.passed []
    rw [List.append_nil] at hpass
    change (Cursor.passOver _ s.cursor.passed s.cursor.rest).2.length ≤ _
    rw [hpass]
    exact Nat.zero_le _
  · obtain ⟨pad, more, hrest, hpad, ht, -⟩ := exists_of_visible hvisible
    have hbreak : t.kind ≠ .newline := by
      intro hbreak
      rw [(hline s).two hrest (.blank hpad) ht (.inl hbreak)] at hrun
      cases hrun
    have hpad' : ∀ x ∈ pad, Cursor.skipsWhen s.cursor.lineBreaksCount x := fun x hx =>
      Cursor.skipsWhen_of_isSpace (Cursor.skipsWhen_true x ▸ hpad x hx) _
    have ht' : Cursor.skipsWhen s.cursor.lineBreaksCount t = false := by
      unfold Cursor.skipsWhen at ht ⊢
      split at ht <;> simp_all
    -- both steps lead to the same token
    rw [advance_seen (s := s.setLineBreaks true) rfl hrest hpad ht,
      advance_seen rfl hrest hpad' ht']
    exact le_rfl

theorem text : Consumes (text : Parser ρ String) :=
  withLineBreaks (optionalEqual (bind (overTokens _))) fun _ => text_takesOneEqual

end Consumes

/-! ## Steady parsers -/

/-- The parser looks ahead only for a symbol that it takes, or to choose what reads the token it has
seen. -/
inductive Steady : ∀ {α : Type}, Parser ρ α → Prop
  | composed {α : Type} {may : ∀ α : Type, (ρ → α × ρ) → Prop} {p : Parser ρ α} :
      Composed may False p → Steady p
  | accept (symbol : Symbol) : Steady (accept symbol)
  | choose {α : Type} {f : Token → Parser ρ α} :
      (∀ t, Steady (f t)) → (∀ t, Consumes (f t)) → Steady (peek >>= f)
  | bind {α β : Type} {p : Parser ρ α} {f : α → Parser ρ β} :
      Steady p → (∀ a, Steady (f a)) → Steady (p >>= f)
  | withLineBreaks {α : Type} {p : Parser ρ α} : Steady p → Steady (withLineBreaks p)
  | overTokens {α β : Type} {body : α → Token → Parser ρ (Progress α β)}
      {finish : α → Token → Parser ρ β} (a : α) :
      (∀ a t, Steady (body a t)) → (∀ a t, Steady (finish a t)) → Steady (overTokens body finish a)

namespace Steady

theorem looksOnly {p : Parser ρ α} (h : Composed LooksOnly False p) : Steady p := composed h

theorem pure (a : α) : Steady (Pure.pure a : Parser ρ α) := looksOnly (.pure a)

theorem unexpected (t : Token) : Steady (unexpected t : Parser ρ α) :=
  looksOnly (unexpected_composed t)

theorem unexpectedName (t : Token) : Steady (unexpectedName t : Parser ρ α) :=
  looksOnly (unexpectedName_composed t)

theorem next : Steady (next : Parser ρ Token) := looksOnly next_composed

theorem note (notices : Journal) : Steady (note notices : Parser ρ Unit) :=
  looksOnly (.note notices)

theorem build (f : ρ → α × ρ) : Steady (build f) :=
  @composed _ _ (fun _ _ => True) _ (.build trivial)

theorem optionalEqual : Steady (optionalEqual : Parser ρ Unit) :=
  bind (accept _) fun _ => pure ()

theorem separated (separator : Symbol) {term : Token → Parser ρ α} (hterm : ∀ t, Steady (term t)) :
    Steady (separated separator term) :=
  overTokens _ (fun _ t => bind (hterm t) fun _ => bind (accept _) fun _ => pure _)
    fun _ t => looksOnly (failAt_composed t _)

theorem number : Steady (number : Parser ρ Float) :=
  bind optionalEqual fun _ => bind next fun t => looksOnly (signedNumber_composed t)

theorem word : Steady (word : Parser ρ String) := by
  refine bind optionalEqual fun _ => bind next fun t => ?_
  split
  · exact pure _
  · exact unexpected t

theorem flag : Steady (flag : Parser ρ Bool) := by
  refine bind optionalEqual fun _ => bind next fun t => ?_
  split
  · exact pure _
  split
  · exact pure _
  split
  · exact unexpectedName t
  · exact unexpected t

theorem keyword (vocabulary : Vocabulary α) : Steady (keyword vocabulary : Parser ρ α) :=
  bind word fun _ => bind (note _) fun _ => pure _

theorem text : Steady (text : Parser ρ String) :=
  withLineBreaks (bind optionalEqual fun _ =>
    bind (separated _ fun t => looksOnly (textTerm_composed t)) fun _ => pure _)

theorem color : Steady (color : Parser ρ Color) :=
  withLineBreaks (bind optionalEqual fun _ =>
    bind (separated _ fun t => looksOnly (signedNumber_composed t)) fun _ => pure _)

theorem nameOrText : Steady (nameOrText : Parser ρ String) := by
  refine bind optionalEqual fun _ => choose (fun t => ?_) fun t => ?_
  · split
    · exact text
    · exact text
    · exact word
  · split
    · exact .text
    · exact .text
    · exact .word

theorem read (a : Attribute β) : Steady (a.read : Parser ρ (β → β)) := by
  cases a with
  | color set => exact bind color fun _ => pure _
  | number set => exact bind number fun _ => pure _
  | flag set => exact bind flag fun _ => pure _
  | text set => exact bind text fun _ => pure _
  | keyword changes => exact keyword changes

theorem readLine (attributes : Attributes β) (t : Token) :
    Steady (Attribute.readLine attributes t : Parser ρ (β → β)) := by
  unfold Attribute.readLine
  split
  · exact read _
  · exact unexpectedName t

theorem discardedBlock : Steady (discardedBlock : Parser ρ Unit) := by
  refine choose (fun t => ?_) fun t => ?_
  · split
    · exact looksOnly skipBlock_composed
    · exact unexpected t
  · split
    · exact .skipBlock
    · exact .of_refuses (.unexpected t)

section Lines

variable {named : β → Token → Parser ρ β} (hnamed : ∀ b t, Steady (named b t))
include hnamed

theorem line (b : β) (t : Token) : Steady (line named b t) := by
  unfold Parser.line
  split
  · exact bind (looksOnly variableDefinition_composed) fun _ => pure b
  · split
    · exact bind discardedBlock fun _ => pure b
    · exact hnamed b t
  · exact unexpected t

theorem lines (closing : TokenKind) (b : β) : Steady (lines closing named b) := by
  refine overTokens _ (fun b t => ?_) fun b t => ?_
  · unfold lineOrClose
    split
    · exact pure _
    · exact bind (line hnamed b t) fun _ => pure _
  · unfold closeAtEnd
    split
    · exact pure b
    · exact unexpected t

theorem block (b : β) : Steady (block named b) :=
  bind (looksOnly (expect_composed _)) fun _ => lines hnamed _ b

end Lines

end Steady

/-! ## The lines of all loops -/

section Grammar

variable {σ : Type}

theorem materialLine_steady (b : Unit) (t : Token) : Steady (materialLine (σ := σ) b t) :=
  .bind (.readLine _ t) fun _ => .build _

theorem filterLine_steady (b : Unit) (t : Token) : Steady (filterLine (σ := σ) b t) :=
  .bind (.readLine _ t) fun _ => .build _

theorem textureLine_steady (b : Unit) (t : Token) : Steady (textureLine (σ := σ) b t) := by
  unfold textureLine
  split
  · exact .block filterLine_steady ()
  · exact .bind (.readLine _ t) fun _ => .build _

theorem boundTexture_steady : Steady (boundTexture (σ := σ)) := by
  refine .bind .nameOrText fun name => .bind (.build _) fun found => ?_
  split
  · exact .pure _
  · exact .bind (.note _) fun _ => .pure _

theorem layerLine_steady (b : Unit) (t : Token) : Steady (layerLine (σ := σ) b t) := by
  unfold layerLine
  split
  · exact .bind boundTexture_steady fun _ => .build _
  · exact .bind (.readLine _ t) fun _ => .build _

theorem componentLine_steady (a : VertexAttribute) (t : Token) :
    Steady (componentLine (σ := σ) a t) :=
  .bind (.readLine _ t) fun _ => .pure _

theorem codeFromFile_steady : Steady (codeFromFile (σ := σ)) := by
  refine .bind .text fun path => .bind (.build _) fun content => ?_
  split
  · exact .pure _
  · exact .bind (.note _) fun _ => .pure _

theorem attributeBlock_steady (b : Unit) (t : Token) : Steady (attributeBlock (σ := σ) b t) := by
  unfold attributeBlock
  split
  · exact .unexpectedName t
  · exact .bind (.looksOnly (attributeHeader_composed _)) fun a =>
      .bind (.lines componentLine_steady _ a) fun _ => .build _

variable [RenderSystem σ]

theorem stageLine_steady (b : Unit) (t : Token) : Steady (stageLine (σ := σ) b t) := by
  unfold stageLine
  split
  · exact .bind (.keyword _) fun _ => .build _
  · exact .bind (.composed (requireVersion_composed t)) fun _ => .bind .text fun _ => .build _
  · exact .bind (.composed (requireVersion_composed t)) fun _ =>
      .bind codeFromFile_steady fun _ => .build _
  · exact .unexpectedName t

theorem stageBlock_steady (b : Unit) (t : Token) : Steady (stageBlock (σ := σ) b t) := by
  unfold stageBlock
  split
  · exact .unexpectedName t
  · exact .bind (.looksOnly (stageHeader_composed _)) fun _ =>
      .bind (.lines stageLine_steady _ ()) fun _ => .composed (finishStage_composed _ _)

theorem dialectBlock_steady (b : Unit) (t : Token) : Steady (dialectBlock (σ := σ) b t) := by
  unfold dialectBlock
  split
  · exact .unexpectedName t
  · refine .bind (.build _) fun backend => ?_
    split
    · exact .composed (foreignDialect_composed _)
    · exact .bind (.block stageBlock_steady ()) fun _ => .composed finishDialect_composed

theorem shader_steady : Steady (shader (σ := σ)) := by
  refine .bind (.looksOnly declaredName_composed) fun name => .bind (.build _) fun supported => ?_
  split
  · exact .composed (unsupportedShader_composed name)
  · exact .bind (.composed (shaderHeader_composed name)) fun _ => .lines dialectBlock_steady _ ()

theorem declaration_steady (b : Unit) (t : Token) : Steady (declaration (σ := σ) b t) := by
  unfold declaration
  split
  · exact .bind (.composed materialHeader_composed) fun _ => .lines materialLine_steady _ ()
  · exact shader_steady
  · exact .bind (.composed vertexFormatHeader_composed) fun _ => .lines attributeBlock_steady _ ()
  · exact .bind (.composed textureHeader_composed) fun name =>
      .bind (.lines textureLine_steady _ ()) fun _ => .composed (finishTexture_composed name)
  · exact .bind (.composed textureLayerHeader_composed) fun _ => .lines layerLine_steady _ ()
  · exact .unexpectedName t

theorem BlockKind.line_steady (kind : BlockKind) (c : kind.Carried) (t : Token) :
    Steady (kind.line (σ := σ) c t) := by
  cases kind with
  | material => exact materialLine_steady c t
  | shader => exact dialectBlock_steady c t
  | dialect => exact stageBlock_steady c t
  | stage => exact stageLine_steady c t
  | vertexFormat => exact attributeBlock_steady c t
  | component a => exact componentLine_steady c t
  | texture => exact textureLine_steady c t
  | filter => exact filterLine_steady c t
  | textureLayer => exact layerLine_steady c t

end Grammar

/-! ## Runs in tandem -/

/-- Where the parser succeeds with `n` tokens left or more, it does the same in states that `R`
relates. -/
def Repeats (R : State ρ → State ρ → Prop) (n : Nat) (p : Parser ρ α) : Prop :=
  ∀ ⦃s t : State ρ⦄ ⦃a : α⦄ ⦃u : State ρ⦄, R s t → p.run s = (.ok a, u) → n ≤ u.cursor.rest.length →
    ∃ v, p.run t = (.ok a, v) ∧ R u v

/-- `R` relates states in the same scene that read the same until fewer than `n` tokens are left.
Where the next token differs, it is past that place in the first state and no symbol in the
second. -/
structure Tandem (R : State ρ → State ρ → Prop) (n : Nat) : Prop where
  lockstep : ∀ may, Lockstep may False R fun s => s.cursor.rest.length < n
  peek : ∀ {s t}, R s t → t.cursor.peek true = s.cursor.peek true ∨
    (s.advance true).cursor.rest.length < n ∧ ∀ symbol, (t.cursor.peek true).isSymbol symbol = false
  scene : ∀ {s t}, R s t → t.scene = s.scene

section Runs

variable {R : State ρ → State ρ → Prop} {n : Nat} (hR : Tandem R n)
include hR

theorem Tandem.advance {s t : State ρ} (hst : R s t) (b : Bool)
    (h : n ≤ (s.advance b).cursor.rest.length) : R (s.advance b) (t.advance b) :=
  ((hR.lockstep LooksOnly).advance hst b).resolve_right (Nat.not_lt.2 h)

theorem Tandem.step {s t : State ρ} (hst : R s t) (h : n ≤ (s.advance true).cursor.rest.length) :
    SameStep R s t :=
  ((hR.lockstep LooksOnly).step hst).resolve_right (Nat.not_lt.2 h)

theorem Tandem.accept (symbol : Symbol) : Repeats R n (accept symbol) := by
  intro s t a u hst hrun hu
  rw [accept_run] at hrun ⊢
  split at hrun
  · rename_i hseen
    cases hrun
    have hpeek := (hR.peek hst).resolve_right fun h => absurd h.1 (Nat.not_lt.2 hu)
    rw [hpeek, if_pos hseen]
    exact ⟨_, rfl, hR.advance hst true hu⟩
  · rename_i hother
    cases hrun
    have hother' : (t.cursor.peek true).isSymbol symbol = false := by
      rcases hR.peek hst with hpeek | ⟨-, hnone⟩
      · rw [hpeek]
        simpa using hother
      · exact hnone symbol
    rw [hother', if_neg Bool.false_ne_true]
    exact ⟨_, rfl, hst⟩

/-- **What a steady parser reads before the place, it reads in both states.** -/
theorem Steady.repeats {p : Parser ρ α} (h : Steady p) : Repeats R n p := by
  induction h with
  | composed h =>
    intro s t a u hst hrun hu
    have hsame := h.lockstep (hR.lockstep _) hst
    rw [hrun] at hsame
    exact (hsame.resolve_right (Nat.not_lt.2 hu)).eq_right
  | accept symbol => exact hR.accept symbol
  | @choose _ f _ hconsumes ih =>
    intro s t a u hst hrun hu
    have hrun : (f (s.cursor.peek true)).run s = (.ok a, u) := hrun
    have hpeek := (hR.peek hst).resolve_right fun h =>
      absurd (hu.trans (hconsumes _ hrun)) (Nat.not_le.2 h.1)
    obtain ⟨v, hv, huv⟩ := ih _ hst hrun hu
    rw [← hpeek] at hv
    exact ⟨v, hv, huv⟩
  | bind _ _ ihp ihf =>
    intro s t b u hst hrun hu
    obtain ⟨a, w, hp, hf⟩ := run_bind_eq_ok hrun
    obtain ⟨x, hx, hwx⟩ := ihp hst hp (hu.trans (onward_of_run hf).leads.length_rest_le)
    obtain ⟨v, hv, huv⟩ := ihf a hwx hf hu
    exact ⟨v, (run_bind_of_ok hx).trans hv, huv⟩
  | @withLineBreaks _ p _ ih =>
    intro s t a u hst hrun hu
    rcases hinner : p.run (s.setLineBreaks true) with ⟨answer, w⟩
    rw [run_withLineBreaks hinner] at hrun
    cases hrun
    have hstep := hR.lockstep LooksOnly
    obtain ⟨x, hx, hwx⟩ := ih (hstep.setLineBreaks hst true) hinner hu
    refine ⟨_, run_withLineBreaks hx, ?_⟩
    rw [hstep.lineBreaks hst]
    exact hstep.setLineBreaks hwx _
  | @overTokens _ _ body finish a _ _ ihbody ihfinish =>
    intro s t b u hst hrun hu
    change runOverTokens body finish a s = _ at hrun
    change ∃ v, runOverTokens body finish a t = _ ∧ R u v
    -- a round of one run is a round of the other
    have round : ∀ {a s t answer w}, R s t → ¬ s.AtEnd →
        (body a (s.advance true).cursor.current).run (s.advance true) = (.ok answer, w) →
        n ≤ w.cursor.rest.length → ¬ t.AtEnd ∧ ∃ x,
          (body a (t.advance true).cursor.current).run (t.advance true) = (.ok answer, x) ∧
            R w x := by
      intro a s t answer w hst hend hround hw
      have hstep := hR.step hst (hw.trans (onward_of_run hround).leads.length_rest_le)
      refine ⟨(not_congr hstep.atEnd).1 hend, ?_⟩
      rw [hstep.token]
      exact ihbody a _ hstep.states hround hw
    induction a, s using loop_induction body generalizing t with
    | atEnd a s hend =>
      rw [runOverTokens_atEnd hend] at hrun
      have hstep := hR.step hst (hu.trans (onward_of_run hrun).leads.length_rest_le)
      rw [runOverTokens_atEnd (hstep.atEnd.1 hend), hstep.token]
      exact ihfinish a _ hstep.states hrun hu
    | more a s a' w hend hround ih =>
      rw [runOverTokens_more hend hround] at hrun
      have hlater : w.Onward u := onward_of_run (p := Parser.overTokens body finish a') hrun
      obtain ⟨hend', x, hround', hwx⟩ :=
        round hst hend hround (hu.trans hlater.leads.length_rest_le)
      rw [runOverTokens_more hend' hround']
      exact ih hwx hrun
    | done a s b' w hend hround =>
      rw [runOverTokens_done hend hround] at hrun
      cases hrun
      obtain ⟨hend', x, hround', hwx⟩ := round hst hend hround hu
      rw [runOverTokens_done hend' hround']
      exact ⟨x, rfl, hwx⟩
    | error a s e w hend hround =>
      rw [runOverTokens_error hend hround] at hrun
      cases hrun

section Lines

variable {closing : TokenKind} {named : β → Token → Parser ρ β} {b b' : β} {s t u : State ρ}
  (hnamed : ∀ b t, Steady (named b t))
include hnamed

/-- Both runs read a line that ends before the place. -/
theorem line_repeats (hst : R s t) (hend : ¬ s.AtEnd)
    (hline : (line named b (s.advance true).cursor.current).run (s.advance true) = (.ok b', u))
    (hu : n ≤ u.cursor.rest.length) :
    ¬ t.AtEnd ∧ (t.advance true).cursor.current = (s.advance true).cursor.current ∧
      ∃ v, (line named b (t.advance true).cursor.current).run (t.advance true) = (.ok b', v) ∧
        R u v := by
  have hstep := hR.step hst (hu.trans (onward_of_run hline).leads.length_rest_le)
  refine ⟨(not_congr hstep.atEnd).1 hend, hstep.token, ?_⟩
  rw [hstep.token]
  exact (Steady.line hnamed b _).repeats hR hstep.states hline hu

/-- Both runs come to the same line. -/
theorem HandsLine.repeats (h : HandsLine closing named b s b' u) (hst : R s t)
    (hu : n ≤ u.cursor.rest.length) : ∃ v, HandsLine closing named b t b' v ∧ R u v := by
  induction h generalizing t with
  | @here b s hend hname hdiscard =>
    have hstep := hR.step hst hu
    refine ⟨t.advance true, .here ((not_congr hstep.atEnd).1 hend) ?_ ?_, hstep.states⟩
    · rwa [hstep.token]
    · rwa [hstep.token]
  | later hend hopen hline hlater ih =>
    obtain ⟨hend', hcurrent, x, hx, hwx⟩ :=
      line_repeats hR hnamed hst hend hline (hu.trans hlater.onward.leads.length_rest_le)
    obtain ⟨v, hv, huv⟩ := ih hwx hu
    exact ⟨v, .later hend' (hcurrent ▸ hopen) hx hv, huv⟩

/-- Both runs come to the same turn. -/
theorem Turn.repeats (h : Turn closing named b s b' u) (hst : R s t)
    (hu : n ≤ u.cursor.rest.length) : ∃ v, Turn closing named b t b' v ∧ R u v := by
  induction h generalizing t with
  | first => exact ⟨t, .first, hst⟩
  | next hend hopen hline hlater ih =>
    obtain ⟨hend', hcurrent, x, hx, hwx⟩ :=
      line_repeats hR hnamed hst hend hline (hu.trans hlater.onward.leads.length_rest_le)
    obtain ⟨v, hv, huv⟩ := ih hwx hu
    exact ⟨v, .next hend' (hcurrent ▸ hopen) hx hv, huv⟩

end Lines

end Runs

/-! ## Other tokens from a place on -/

namespace State

variable {after after' more : List Token} {word : Token} {s t : State ρ}

/-- The state with other tokens to come. -/
def withRest (s : State ρ) (ts : List Token) : State ρ :=
  { s with cursor := { s.cursor with rest := ts } }

/-- `t` has the tokens `after'` to come where `s` has `after`. -/
def Swapped (after after' : List Token) (s t : State ρ) : Prop :=
  ∃ ts, s.cursor.rest = ts ++ after ∧ t = s.withRest (ts ++ after')

namespace Swapped

theorem current (h : s.Swapped after after' t) : t.cursor.current = s.cursor.current := by
  obtain ⟨ts, -, rfl⟩ := h
  rfl

/-- A step leads both on, or from where they differ on: there `t` is on the name that comes. -/
theorem advance (hafter : after ≠ []) (hword : word.kind = .name)
    (h : s.Swapped after (word :: more) t) (b : Bool) :
    (s.advance b).Swapped after (word :: more) (t.advance b) ∨
      (s.advance b).cursor.rest.length < after.length ∧ (t.advance b).cursor.current = word := by
  obtain ⟨ts, hrest, rfl⟩ := h
  obtain ⟨⟨passed, rest, m⟩, bindings, journal, scene⟩ := s
  obtain rfl : rest = _ := hrest
  rcases Cursor.passOver_append_cases (Cursor.skipped ⟨passed, ts ++ after, m⟩ b) passed ts
    with ⟨passed', ts', hpass⟩ | hskip
  · have hpass' : Cursor.passOver (Cursor.skipped ⟨passed, ts ++ word :: more, m⟩ b) passed
        (ts ++ word :: more) = (passed', ts' ++ word :: more) := hpass _
    refine .inl ⟨ts', ?_, ?_⟩
    · simp only [State.advance, Cursor.advance]
      rw [hpass]
    · simp only [State.advance, State.withRest, Cursor.advance]
      rw [hpass, hpass']
  · have hstay : Cursor.skipped ⟨passed, ts ++ word :: more, m⟩ b word = false := by
      simp [Cursor.skipped, Cursor.skips, Cursor.skipsWhen, hword]
    have hskip' : ∀ x ∈ ts, Cursor.skipped ⟨passed, ts ++ word :: more, m⟩ b x := hskip
    refine .inr ⟨?_, ?_⟩
    · have hmoved := Cursor.length_rest_advance_lt ⟨ts.reverse ++ passed, after, m⟩ b hafter
      simp only [State.advance, Cursor.advance] at hmoved ⊢
      rw [Cursor.passOver_append_of_skipped hskip]
      exact hmoved
    · simp only [State.advance, State.withRest, Cursor.advance, Cursor.current]
      rw [Cursor.passOver_append_of_skipped hskip', Cursor.passOver, hstay]
      rfl

theorem atEnd_iff (hafter : after ≠ []) (hafter' : after' ≠ []) (h : s.Swapped after after' t)
    (hstep : (t.advance true).cursor.current = (s.advance true).cursor.current) :
    s.AtEnd ↔ t.AtEnd := by
  rw [State.AtEnd, State.AtEnd, hstep]
  obtain ⟨ts, hrest, rfl⟩ := h
  simp [hrest, State.withRest, hafter, hafter']

/-- **Where a name comes in the place of other tokens, both runs do the same up to there.** -/
theorem tandem (hafter : after ≠ []) (hword : word.kind = .name) :
    Tandem (Swapped (ρ := ρ) after (word :: more)) after.length where
  lockstep may :=
    { onward := fun h hs => h.leads.length_rest_le.trans_lt hs
      escaped := fun _ h => h
      current := current
      lineBreaks := by
        rintro s t ⟨ts, -, rfl⟩
        rfl
      bindings := by
        rintro s t ⟨ts, -, rfl⟩
        exact .refl _
      advance := fun h b => (h.advance hafter hword b).imp_right And.left
      atEnd := fun h hstep => h.atEnd_iff hafter (List.cons_ne_nil _ _) hstep.current
      peek := False.elim
      setLineBreaks := by
        rintro s t ⟨ts, hrest, rfl⟩ count
        exact ⟨ts, hrest, rfl⟩
      note := by
        rintro s t ⟨ts, hrest, rfl⟩ notices
        exact ⟨ts, hrest, rfl⟩
      setVariable := by
        rintro s t ⟨ts, hrest, rfl⟩ name value
        exact ⟨ts, hrest, rfl⟩
      build := by
        rintro α f _ s t ⟨ts, hrest, rfl⟩
        exact ⟨rfl, ts, hrest, rfl⟩ }
  peek := by
    intro s t h
    rcases h.advance hafter hword true with hstep | ⟨hlt, hcurrent⟩
    · exact .inl hstep.current
    · have hpeek : t.cursor.peek true = word := hcurrent
      exact .inr ⟨hlt, fun symbol => by simp [hpeek, Token.isSymbol, hword]⟩
  scene := by
    rintro s t ⟨ts, -, rfl⟩
    rfl

end Swapped

end State

/-! ## Blocks -/

section Load

variable {σ : Type} [RenderSystem σ] {R : State (Scene σ) → State (Scene σ) → Prop} {n : Nat}
  {s₀ t₀ u : State (Scene σ)} {kind : BlockKind} {name : String}
  {k : kind.Carried → Parser (Scene σ) Unit}

/-- **Both scripts come to the same blocks**, and go on with the same after them. -/
theorem InBlock.repeats (hR : Tandem R n) (h : InBlock s₀ kind name u k) (hst : R s₀ t₀)
    (hu : n ≤ u.cursor.rest.length) : ∃ v, InBlock t₀ kind name v k ∧ R u v := by
  have before : ∀ {α : Type} {p : Parser (Scene σ) α} {answer : Except ScriptError α}
      {s u : State (Scene σ)}, p.run s = (answer, u) → n ≤ u.cursor.rest.length →
      n ≤ s.cursor.rest.length := fun hrun hu =>
    hu.trans (onward_of_run hrun).leads.length_rest_le
  -- the header of a declaration
  have declared : ∀ {α : Type} {p : Parser (Scene σ) α} {a : α} {keyword : String}
      {s u : State (Scene σ)}, Composed DeclarationChange False p → Declares s₀ keyword s →
      p.run s = (.ok a, u) → n ≤ u.cursor.rest.length →
      ∃ t v, Declares t₀ keyword t ∧ p.run t = (.ok a, v) ∧ R s t ∧ R u v := by
    intro α p a keyword s u hp hs hrun hu
    obtain ⟨t, ht, hst'⟩ := hs.1.repeats hR declaration_steady hst (before hrun hu)
    obtain ⟨v, hv, huv⟩ := (Steady.composed hp).repeats hR hst' hrun hu
    have hcurrent := (hR.lockstep LooksOnly).current hst'
    exact ⟨t, v, ⟨ht, hcurrent ▸ hs.2⟩, hv, hst', huv⟩
  -- the header of a block in another
  have within : ∀ (may : ∀ α : Type, (Scene σ → α × Scene σ) → Prop) {α : Type}
      {p : Parser (Scene σ) α} {a : α} {outer : BlockKind} {c : outer.Carried}
      {s t u x : State (Scene σ)}, Composed may False p → outer.Comes s c t →
      p.run t = (.ok a, u) → n ≤ u.cursor.rest.length → R s x →
      ∃ y v, outer.Comes x c y ∧ y.cursor.current = t.cursor.current ∧ y.scene = t.scene ∧
        p.run y = (.ok a, v) ∧ R u v := by
    intro may α p a outer c s t u x hp ht hrun hu hsx
    obtain ⟨y, hy, hty⟩ := HandsLine.repeats hR outer.line_steady ht hsx (before hrun hu)
    obtain ⟨v, hv, huv⟩ := (Steady.composed hp).repeats hR hty hrun hu
    exact ⟨y, v, hy, (hR.lockstep LooksOnly).current hty, hR.scene hty, hv, huv⟩
  induction h with
  | material hs hrun =>
    obtain ⟨t, v, ht, hv, -, huv⟩ := declared materialHeader_composed hs hrun hu
    exact ⟨v, .material ht hv, huv⟩
  | @shader s t u name hs hshader =>
    have hname := hshader.declared
    obtain ⟨s', t', hs', ht', -, htt'⟩ :=
      declared declaredName_composed ⟨hs, hshader.keyword⟩ hname (before hshader.header hu)
    have hheader : Composed DeclarationChange False (shaderHeader (σ := σ) name) :=
      shaderHeader_composed name
    obtain ⟨v, hv, huv⟩ := (Steady.composed hheader).repeats hR htt' hshader.header hu
    refine ⟨v, .shader hs'.1 ⟨hs'.2, ht', ?_, hv⟩, huv⟩
    rw [hR.scene htt']
    exact hshader.supported
  | dialect _ ht hopens ih =>
    obtain ⟨s', hs', hss'⟩ :=
      ih ((before hopens.brace hu).trans (HandsLine.onward ht).leads.length_rest_le)
    obtain ⟨t', v, ht', hcurrent, hscene, hv, huv⟩ :=
      within LooksOnly (expect_composed _) ht hopens.brace hu hss'
    refine ⟨v, .dialect hs' ht' ⟨?_, hv⟩, huv⟩
    rw [hcurrent, hscene]
    exact hopens.active
  | stage _ ht hword hrun ih =>
    obtain ⟨s', hs', hss'⟩ := ih ((before hrun hu).trans (HandsLine.onward ht).leads.length_rest_le)
    obtain ⟨t', v, ht', hcurrent, -, hv, huv⟩ :=
      within LooksOnly (stageHeader_composed _) ht hrun hu hss'
    exact ⟨v, .stage hs' ht' (hcurrent ▸ hword) hv, huv⟩
  | vertexFormat hs hrun =>
    obtain ⟨t, v, ht, hv, -, huv⟩ := declared vertexFormatHeader_composed hs hrun hu
    exact ⟨v, .vertexFormat ht hv, huv⟩
  | component _ ht hword hrun ih =>
    obtain ⟨s', hs', hss'⟩ := ih ((before hrun hu).trans (HandsLine.onward ht).leads.length_rest_le)
    obtain ⟨t', v, ht', hcurrent, -, hv, huv⟩ :=
      within (LineChange .vertexFormat) (attributeHeader_composed _) ht hrun hu hss'
    exact ⟨v, .component hs' ht' (hcurrent ▸ hword) hv, huv⟩
  | texture hs hrun =>
    obtain ⟨t, v, ht, hv, -, huv⟩ := declared textureHeader_composed hs hrun hu
    exact ⟨v, .texture ht hv, huv⟩
  | filter _ ht hword hrun ih =>
    obtain ⟨s', hs', hss'⟩ := ih ((before hrun hu).trans (HandsLine.onward ht).leads.length_rest_le)
    obtain ⟨t', v, ht', hcurrent, -, hv, huv⟩ :=
      within LooksOnly (expect_composed _) ht hrun hu hss'
    exact ⟨v, .filter hs' ht' (hcurrent ▸ hword) hv, huv⟩
  | textureLayer hs hrun =>
    obtain ⟨t, v, ht, hv, -, huv⟩ := declared textureLayerHeader_composed hs hrun hu
    exact ⟨v, .textureLayer ht hv, huv⟩

end Load

end MaterialScript.Parser
