/-
What blocks pass.

Skipping a block passes tokens up to a `{`, a balanced stretch and a `}`
(`skipBlock_reads`), and it does so wherever such tokens follow
(`skipBlock_passes` in `Proofs.Closing`). Reading one passes what its lines
pass and a `}` (`blockBody_reads`). Every line is balanced, with one exception:
the dialect a shader skips may start anywhere, so skipping it may pass the `}`
of the shader (`dialectBlock_reads`).
-/
import MaterialScript.Grammar.Script
import MaterialScript.Proofs.Values

namespace MaterialScript

open Braces

namespace Parser

variable {ρ α β : Type} {m : Bool}

/-! ## Skipping -/

theorem seekBrace_reads : Reads m (seekBrace : Parser ρ Unit) fun _ vs =>
    ∃ before opening, vs = before ++ [opening] ∧ (∀ t ∈ before, t.isSymbol .leftBrace = false) ∧
      opening.isSymbol .leftBrace := by
  refine .overTokens (I := fun _ us => ∀ t ∈ us, t.isSymbol .leftBrace = false)
    (fun _ t us hus _ => .pure ?_) (fun _ t us _ _ => .failAt t _) (by simp)
  cases ht : t.isSymbol .leftBrace with
  | true => exact ⟨us, t, rfl, hus, ht⟩
  | false =>
    intro u hu
    rcases List.mem_append.1 hu with hu | hu
    · exact hus u hu
    · rw [List.mem_singleton.1 hu]
      exact ht

/-- One step of counting braces. -/
theorem closeBrace_cases (depth : Nat) (t : Token) :
    (∃ depth' : Nat, closeBrace depth t = .more depth' ∧ (depth' : Int) = depth + t.depthChange) ∨
      (closeBrace depth t = .done () ∧ depth = 0 ∧ t.isSymbol .rightBrace) := by
  by_cases hleft : t.kind = .symbol .leftBrace
  · refine .inl ⟨depth + 1, by simp [closeBrace, hleft], ?_⟩
    rw [Token.depthChange_of_isSymbol_leftBrace (by simp [Token.isSymbol, hleft])]
    omega
  by_cases hright : t.kind = .symbol .rightBrace
  · have hclose : t.isSymbol .rightBrace := by simp [Token.isSymbol, hright]
    cases depth with
    | zero => exact .inr ⟨by simp [closeBrace, hright], rfl, hclose⟩
    | succ depth =>
      refine .inl ⟨depth, by simp [closeBrace, hright], ?_⟩
      rw [Token.depthChange_of_isSymbol_rightBrace hclose]
      omega
  · refine .inl ⟨depth, ?_, ?_⟩
    · unfold closeBrace
      split <;> simp_all
    · rw [Token.depthChange_of_not_isBrace (by simp [Token.isBrace, Token.isSymbol, hleft, hright])]
      omega

theorem skipToClose_reads :
    Reads m (skipToClose : Parser ρ Unit) fun _ vs => Closing Balanced vs := by
  refine .overTokens (I := fun depth us => Within depth us)
    (fun depth t us hus _ => .pure ?_) (fun _ t us _ _ => .failAt t _) ⟨?_, rfl⟩
  · rcases closeBrace_cases depth t with ⟨depth', heq, hdepth⟩ | ⟨heq, rfl, hclose⟩
    · rw [heq]
      exact hus.snoc hdepth
    · rw [heq]
      exact ⟨us, t, rfl, ⟨hus.sane, hus.depth⟩, hclose⟩
  · intro p hp
    rw [List.prefix_nil.1 hp]
    exact Int.le_refl 0

theorem skipBlock_reads : Reads m (skipBlock : Parser ρ Unit) fun _ vs =>
    ∃ before block, vs = before ++ block ∧ (∀ t ∈ before, t.isSymbol .leftBrace = false) ∧
      Block block := by
  refine .bind seekBrace_reads fun _ => skipToClose_reads.mono ?_
  rintro _ vs ⟨inside, close, rfl, hinside, hclose⟩ us ⟨before, opening, rfl, hbefore, hopen⟩
  exact ⟨before, opening :: inside ++ [close], by simp, hbefore,
    opening, inside, close, rfl, hopen, hinside, hclose⟩

/-- Where a `{` stands next, seeking one leads there. -/
theorem seekBrace_run {s : State ρ} (hends : Ends s.cursor.tokens)
    (hpeek : (s.cursor.peek true).isSymbol .leftBrace) :
    seekBrace.run s = (.ok (), s.advance true) := by
  have hkind : (s.cursor.peek true).kind = .symbol .leftBrace := by
    simpa [Token.isSymbol] using hpeek
  have heof : ((s.advance true).cursor.current).isEndOfFile = false := by
    change (s.cursor.peek true).isEndOfFile = false
    simp [Token.isEndOfFile, hkind]
  have hend : ¬ s.AtEnd := by
    intro h
    obtain ⟨-, -, -, h⟩ := Reads.step_of_atEnd hends h
    rw [h] at heof
    cases heof
  refine runOverTokens_done hend ?_
  have hstep : (s.advance true).cursor.current.isSymbol .leftBrace := hpeek
  rw [if_pos hstep]
  rfl

theorem discardedBlock_reads : Reads m (discardedBlock : Parser ρ Unit) fun _ vs => Block vs := by
  intro s a u hends hm hrun
  obtain ⟨t, v, hpeek, hrun⟩ := run_bind_eq_ok hrun
  cases hpeek
  split at hrun
  · rename_i hopen
    obtain ⟨_, v, hseek, hskip⟩ := run_bind_eq_ok hrun
    rw [seekBrace_run hends hopen] at hseek
    cases hseek
    obtain ⟨us, hus, hread⟩ := Reads.take (ρ := ρ) true hends hm rfl
    obtain ⟨vs, hvs, inside, close, heq, hinside, hclose⟩ :=
      skipToClose_reads (s := s.advance true) (hus.ends hends) hm hskip
    refine ⟨us ++ vs, hus.trans hvs, s.cursor.peek true, inside, close, ?_, hopen, hinside, hclose⟩
    rcases hread with ⟨-, hread⟩ | ⟨-, heof⟩
    · rw [visible_append, hread rfl, heq]
      rfl
    · have hkind : (s.cursor.peek true).kind = .symbol .leftBrace := by
        simpa [Token.isSymbol] using hopen
      have heof : (s.cursor.peek true).isEndOfFile := heof
      simp [Token.isEndOfFile, hkind] at heof
  · cases hrun

theorem skipBlock_endsOn :
    EndsOn (skipBlock : Parser ρ Unit) fun _ c => c.isSymbol .rightBrace := by
  refine .bind fun _ => .overTokens (fun depth s _ u hrun => ?_)
    (fun _ t => .of_refuses (.failAt t _)) 0
  rcases closeBrace_cases depth s.cursor.current with ⟨depth', heq, -⟩ | ⟨heq, -, hclose⟩
  · rw [heq] at hrun
    cases hrun
  · rw [heq] at hrun
    cases hrun
    exact hclose

theorem discardedBlock_endsOn :
    EndsOn (discardedBlock : Parser ρ Unit) fun _ c => c.isSymbol .rightBrace := by
  refine .bind fun t => ?_
  split
  · exact skipBlock_endsOn
  · exact .of_refuses (.unexpected t)

/-! ## Lines -/

section Lines

variable {K : List Token → Prop} (hK : Stacks K) {named : β → Token → Parser ρ β}
  (hnamed : ∀ b t, Reads m (named b t) fun _ vs => K vs)
include hK hnamed

theorem line_reads (b : β) (t : Token) : Reads m (line named b t) fun _ vs => K (t :: vs) := by
  unfold line
  split
  · rename_i hkind
    refine .bind variableDefinition_plain fun _ => .pure fun vs hvs => ?_
    rw [List.append_nil]
    have hat : t.isBrace = false := by simp [Token.isBrace, Token.isSymbol, hkind]
    exact hK.balanced _ ((Plain.singleton hat).append hvs).balanced
  · rename_i hkind
    have hname := (Plain.singleton (Token.isBrace_of_name hkind)).balanced
    split
    · refine .bind discardedBlock_reads fun _ => .pure fun vs hvs => ?_
      rw [List.append_nil]
      exact hK.balanced _ (hname.append hvs.balanced)
    · exact (hnamed b t).mono fun _ vs hvs => hK.append [t] vs (hK.balanced _ hname) hvs
  · exact .unexpected t

/-- The body of a block passes its lines and a `}`. -/
theorem blockBody_reads (b : β) : Reads m (blockBody named b) fun _ vs => Closing K vs := by
  refine .overTokens (I := fun _ us => K us) (fun b t us hus _ => ?_) (fun b t us _ heof => ?_)
    (hK.balanced _ .nil)
  · unfold lineOrClose
    split
    · rename_i hclose
      exact .pure ⟨us, t, rfl, hus, by simp [Token.isSymbol, hclose]⟩
    · exact .bind (line_reads hK hnamed b t) fun b => .pure fun vs hvs => by
        rw [List.append_nil]
        exact hK.append us _ hus hvs
  · unfold closeAtEnd
    split
    · rename_i hclose
      simp [Token.isEndOfFile, hclose] at heof
    · exact .unexpected t

end Lines

section Rounds

variable {closing : TokenKind} {named : β → Token → Parser ρ β} {b b' : β} {s u : State ρ}

theorem lines_close (hclose : (s.advance true).cursor.current.kind = closing) :
    (lines closing named b).run s = (.ok b, s.advance true) := by
  by_cases hend : s.AtEnd
  · refine (runOverTokens_atEnd hend).trans ?_
    rw [closeAtEnd, if_pos hclose]
    rfl
  · refine runOverTokens_done hend ?_
    rw [lineOrClose, if_pos hclose]
    rfl

/-- After a line that is read, the lines go on. -/
theorem lines_line (hend : ¬ s.AtEnd) (hopen : (s.advance true).cursor.current.kind ≠ closing)
    (hline : (line named b (s.advance true).cursor.current).run (s.advance true) = (.ok b', u)) :
    (lines closing named b).run s = (lines closing named b').run u := by
  refine runOverTokens_more hend ?_
  rw [lineOrClose, if_neg hopen, run_bind, hline]
  rfl

end Rounds

/-- Induction over the lines of a run that succeeds. -/
theorem lines_induction {closing : TokenKind} {named : β → Token → Parser ρ β} {b' : β}
    {t : State ρ} {motive : β → State ρ → Prop}
    (close : ∀ b s, (s.advance true).cursor.current.kind = closing → b' = b →
      t = s.advance true → motive b s)
    (line : ∀ b s b'' u, ¬ s.AtEnd → (s.advance true).cursor.current.kind ≠ closing →
      (line named b (s.advance true).cursor.current).run (s.advance true) = (.ok b'', u) →
      motive b'' u → motive b s)
    {b : β} {s : State ρ} (h : (lines closing named b).run s = (.ok b', t)) : motive b s := by
  change runOverTokens _ _ b s = _ at h
  induction b, s using loop_induction (lineOrClose closing named) with
  | atEnd b s hend =>
    rw [runOverTokens_atEnd hend] at h
    unfold closeAtEnd at h
    split at h
    · rename_i hclose
      cases h
      exact close _ s hclose rfl rfl
    · cases h
  | more b s b'' v hend hbody ih =>
    rw [runOverTokens_more hend hbody] at h
    unfold lineOrClose at hbody
    split at hbody
    · cases hbody
    · rename_i hclose
      obtain ⟨_, w, hline, hbody⟩ := run_bind_eq_ok hbody
      cases hbody
      exact line b s _ _ hend hclose hline (ih h)
  | done b s b'' v hend hbody =>
    rw [runOverTokens_done hend hbody] at h
    cases h
    unfold lineOrClose at hbody
    split at hbody
    · rename_i hclose
      cases hbody
      exact close _ s hclose rfl rfl
    · obtain ⟨_, w, -, hbody⟩ := run_bind_eq_ok hbody
      cases hbody
  | error b s e v hend hbody =>
    rw [runOverTokens_error hend hbody] at h
    cases h

theorem lines_endsOn (closing : TokenKind) (named : β → Token → Parser ρ β) (b : β) :
    EndsOn (lines closing named b) fun _ c => c.kind = closing := by
  intro s b' u hrun
  refine lines_induction (motive := fun _ _ => u.cursor.current.kind = closing)
    (fun b s hclose _ ht => ?_) (fun _ _ _ _ _ _ _ ih => ih) hrun
  rw [ht]
  exact hclose

theorem blockBody_endsOn (named : β → Token → Parser ρ β) (b : β) :
    EndsOn (blockBody named b) fun _ c => c.isSymbol .rightBrace :=
  (lines_endsOn _ named b).mono fun _ _ h => by simp [Token.isSymbol, h]

/-- The `}` that can be seen last is the last of the tokens passed. -/
theorem passes_close {c d : Cursor} {ts vs : List Token} {close : Token} (hts : c.Passes ts d)
    (hvisible : visible m ts = vs ++ [close]) (hclose : d.current.isSymbol .rightBrace) :
    ∃ inside, c.Passes (inside ++ [d.current]) d ∧ visible m inside = vs := by
  have hne : ts ≠ [] := by
    rintro rfl
    simp at hvisible
  obtain ⟨inside, last, rfl⟩ : ∃ inside last, ts = inside ++ [last] :=
    ⟨_, _, (List.dropLast_append_getLast hne).symm⟩
  obtain rfl : d.current = last := by simp [Cursor.current, hts.passed]
  rw [visible_append, visible_of_isSymbol hclose] at hvisible
  exact ⟨inside, hts, (List.append_inj' hvisible rfl).1⟩

/-- The body of a block of balanced lines passes them and the `}` it ends on. -/
theorem blockBody_passes {named : β → Token → Parser ρ β}
    (hnamed : ∀ m b t, Reads m (named b t) fun _ vs => Balanced vs) {b b' : β} {s u : State ρ}
    (hends : Ends s.cursor.tokens) (hrun : (blockBody named b).run s = (.ok b', u)) :
    ∃ inside, s.cursor.Passes (inside ++ [u.cursor.current]) u.cursor ∧ Balanced inside ∧
      u.cursor.current.isSymbol .rightBrace := by
  have hclose := blockBody_endsOn named b hrun
  obtain ⟨ts, hts, vs, close, hvisible, hvs, -⟩ :=
    blockBody_reads stacks_balanced (hnamed s.cursor.lineBreaksCount) b hends rfl hrun
  obtain ⟨inside, hpasses, rfl⟩ := passes_close hts hvisible hclose
  exact ⟨inside, hpasses, balanced_of_visible hvs, hclose⟩

/-- A block of balanced lines is one. -/
theorem block_reads {named : β → Token → Parser ρ β}
    (hnamed : ∀ b t, Reads m (named b t) fun _ vs => Balanced vs) (b : β) :
    Reads m (block named b) fun _ vs => Block vs := by
  refine .bind (.expect .leftBrace) fun _ =>
    (blockBody_reads stacks_balanced hnamed b).mono ?_
  rintro _ vs ⟨inside, close, rfl, hinside, hclose⟩ us ⟨opening, hopen, rfl⟩
  exact ⟨opening, inside, close, rfl, hopen, hinside, hclose⟩

/-! ## The lines of declarations -/

section Grammar

variable {σ : Type}

theorem materialLine_reads (b : Unit) (t : Token) :
    Reads m (materialLine (σ := σ) b t) fun _ vs => Balanced vs :=
  (ReadsPlain.bind (Attribute.readLine_plain _ t) fun _ => .modify _).mono fun _ _ h => h.balanced

theorem componentLine_reads (a : VertexAttribute) (t : Token) :
    Reads m (componentLine (σ := σ) a t) fun _ vs => Balanced vs :=
  (ReadsPlain.bind (Attribute.readLine_plain _ t) fun _ => .pure _).mono fun _ _ h => h.balanced

theorem filterLine_reads (b : Unit) (t : Token) :
    Reads m (filterLine (σ := σ) b t) fun _ vs => Balanced vs :=
  (ReadsPlain.bind (Attribute.readLine_plain _ t) fun _ => .modify _).mono fun _ _ h => h.balanced

theorem textureLine_reads (b : Unit) (t : Token) :
    Reads m (textureLine (σ := σ) b t) fun _ vs => Balanced vs := by
  unfold textureLine
  split
  · exact (block_reads filterLine_reads ()).mono fun _ _ h => h.balanced
  · exact (ReadsPlain.bind (Attribute.readLine_plain _ t) fun _ => .modify _).mono fun _ _ h =>
      h.balanced

theorem boundTexture_plain : ReadsPlain m (boundTexture (σ := σ)) := by
  refine .bind nameOrText_plain fun name => .bind (.inspect _) fun found => ?_
  split
  · exact .pure _
  · exact .bind (.note _) fun _ => .pure _

theorem layerLine_reads (b : Unit) (t : Token) :
    Reads m (layerLine (σ := σ) b t) fun _ vs => Balanced vs := by
  unfold layerLine
  split
  · exact (ReadsPlain.bind boundTexture_plain fun _ => .modify _).mono fun _ _ h => h.balanced
  · exact (ReadsPlain.bind (Attribute.readLine_plain _ t) fun _ => .modify _).mono fun _ _ h =>
      h.balanced

theorem requireVersion_plain (t : Token) : ReadsPlain m (requireVersion (σ := σ) t) :=
  .bind (.inspect _) fun _ => .failIf _ _ _

theorem codeFromFile_plain : ReadsPlain m (codeFromFile (σ := σ)) := by
  refine .bind text_plain fun path => .bind (.build _) fun content => ?_
  split
  · exact .pure _
  · exact .bind (.note _) fun _ => .pure _

theorem stageLine_reads (b : Unit) (t : Token) :
    Reads m (stageLine (σ := σ) b t) fun _ vs => Balanced vs := by
  have plain : ReadsPlain m (stageLine (σ := σ) b t) := by
    unfold stageLine
    split
    · exact .bind (keyword_plain _) fun _ => .modify _
    · exact .bind (requireVersion_plain t) fun _ => .bind text_plain fun _ => .modify _
    · exact .bind (requireVersion_plain t) fun _ => .bind codeFromFile_plain fun _ => .modify _
    · exact .unexpectedName t
  exact plain.mono fun _ _ h => h.balanced

/-! ## Headers -/

theorem declaredName_reads : Reads m (declaredName : Parser ρ Token) fun t vs =>
    t.kind = .string ∧ vs = [t] := by
  refine .bind .next fun t => ?_
  split
  · rename_i hname
    exact .pure fun us hus => ⟨hname.1, by rw [hus.2]; rfl⟩
  · exact .failAt t _

theorem refuseDuplicate_stays (kind : ResourceKind) (name : Token) :
    Stays (refuseDuplicate (σ := σ) kind name) :=
  .bind (fun _ => rfl) fun _ => .failIf _ _ _

theorem newName_reads (kind : ResourceKind) : Reads m (newName (σ := σ) kind) fun name vs =>
    ∃ t, t.kind = .string ∧ t.text = name ∧ vs = [t] := by
  refine .bind declaredName_reads fun t => .bind_stays (refuseDuplicate_stays kind t) fun _ =>
    .pure ?_
  rintro us ⟨hkind, rfl⟩
  exact ⟨t, hkind, rfl, rfl⟩

theorem materialHeader_reads [RenderSystem σ] :
    Reads m (materialHeader (σ := σ)) fun name vs => Named .material name vs := by
  refine .bind (newName_reads _) fun name => .bind (.expect .leftBrace) fun _ =>
    .bind_stays (fun _ => rfl) fun _ => .pure ?_
  rintro us ⟨opening, hopen, rfl⟩ ts ⟨n, hkind, htext, rfl⟩
  exact ⟨n, [], opening, rfl, hkind, htext, rfl, hopen⟩

theorem textureHeader_reads :
    Reads m (textureHeader (σ := σ)) fun name vs => Named .texture name vs := by
  refine .bind (newName_reads _) fun name => .bind (.expect .leftBrace) fun _ =>
    .bind_stays (fun _ => rfl) fun _ => .pure ?_
  rintro us ⟨opening, hopen, rfl⟩ ts ⟨n, hkind, htext, rfl⟩
  exact ⟨n, [], opening, rfl, hkind, htext, rfl, hopen⟩

theorem attributeHeader_reads (kind : AttributeKind) :
    Reads m (attributeHeader (σ := σ) kind) fun _ vs => Heading vs := by
  have hname : ReadsPlain m (headerName (σ := σ) kind) := by
    unfold headerName
    split
    · refine .bind_token .nextOne (fun t => ?_) fun t ht => ?_
      · split
        · exact .pure _
        · exact .failAt t _
      · have hkind : t.kind ≠ .string := by
          rcases kind_of_isBrace ht with hkind | hkind <;> simp [hkind]
        simpa [hkind] using Refuses.failAt t _
    · exact .pure ""
  refine .bind hname fun name => .bind (.expect .leftBrace) fun _ => .pure ?_
  rintro us ⟨opening, hopen, rfl⟩ words hwords
  exact ⟨words, opening, by simp, hwords, hopen⟩

theorem layerKind_reads : Reads m (layerKind (σ := σ)) fun _ vs =>
    ∃ t, t.kind = .name ∧ vs = [t] := by
  refine .bind .next fun t => ?_
  split
  · rename_i hkind
    split
    · exact .pure fun us hus => ⟨t, hkind, by rw [hus.2]; rfl⟩
    · exact .failAt t _
  · exact .unexpected t

theorem inputLayout_reads : Reads m (inputLayout (σ := σ)) fun _ vs =>
    ∃ words opening, vs = words ++ [opening] ∧ (words = [] ∨ ∃ t, t.kind = .name ∧ words = [t]) ∧
      opening.isSymbol .leftBrace := by
  refine .bind .next fun t => ?_
  split
  · rename_i hkind
    refine .pure fun us hus => ⟨[], t, ?_, .inl rfl, by simp [Token.isSymbol, hkind]⟩
    rw [hus.2]
    rfl
  · rename_i hkind
    refine .bind_stays (fun _ => rfl) fun layout => .bind_stays (.noteIf _ _) fun _ => ?_
    refine .bind (.expect .leftBrace) fun _ => .pure ?_
    rintro us ⟨opening, hopen, rfl⟩ ts ⟨-, rfl⟩
    exact ⟨[t], opening, rfl, .inr ⟨t, hkind, rfl⟩, hopen⟩
  · exact .unexpected t

theorem stageHeader_reads (stage : ShaderType) :
    Reads m (stageHeader (σ := σ) stage) fun _ vs => Heading vs := by
  refine .bind .next fun t => ?_
  split
  · rename_i hopen
    refine .pure fun us hus => ⟨[], t, ?_, .nil, hopen⟩
    rw [hus.2]
    rfl
  split
  · rename_i hname
    refine .bind (.expect .leftBrace) fun _ => .pure ?_
    rintro us ⟨opening, hopen, rfl⟩ ts ⟨-, rfl⟩
    exact ⟨[t], opening, rfl, .singleton (Token.isBrace_of_string hname.1), hopen⟩
  · exact .failAt t _

variable [RenderSystem σ]

theorem textureLayerHeader_reads :
    Reads m (textureLayerHeader (σ := σ)) fun name vs => Named .textureLayer name vs := by
  refine .bind (newName_reads _) fun name => .bind layerKind_reads fun kind =>
    .bind (.expect .leftBrace) fun _ => .bind_stays (fun _ => rfl) fun _ => .pure ?_
  rintro us ⟨opening, hopen, rfl⟩ ws ⟨t, hword, rfl⟩ ts ⟨n, hkind, htext, rfl⟩
  exact ⟨n, [t], opening, rfl, hkind, htext, ⟨t, hword, rfl⟩, hopen⟩

theorem vertexFormatHeader_reads :
    Reads m (vertexFormatHeader (σ := σ)) fun name vs => Named .vertexFormat name vs := by
  refine .bind declaredName_reads fun name => .bind_stays (.failIf _ _ _) fun _ =>
    .bind_stays (refuseDuplicate_stays _ name) fun _ => .bind (.expect .leftBrace) fun _ =>
    .bind_stays (fun _ => rfl) fun _ => .pure ?_
  rintro us ⟨opening, hopen, rfl⟩ ts ⟨hkind, rfl⟩
  exact ⟨name, [], opening, rfl, hkind, rfl, rfl, hopen⟩

/-- What follows the name in the header of a shader. -/
theorem shaderHeader_reads (name : Token) : Reads m (shaderHeader (σ := σ) name) fun _ vs =>
    name.kind = .string → Named .shader name.text (name :: vs) := by
  refine .bind_stays (refuseDuplicate_stays _ name) fun _ => .bind inputLayout_reads fun layout =>
    .stays (fun _ => rfl) ?_
  rintro _ us ⟨words, opening, rfl, hwords, hopen⟩ hname
  exact ⟨name, words, opening, by simp, hname, rfl, hwords, hopen⟩

/-! ## Blocks in blocks -/

omit [RenderSystem σ] in
/-- A header and the rest of its block. -/
theorem headed_reads {p : Parser ρ α} {f : α → Parser ρ β}
    (hp : Reads m p fun _ vs => Heading vs)
    (hf : ∀ a, Reads m (f a) fun _ vs => Closing Balanced vs) :
    Reads m (p >>= f) fun _ vs => Balanced vs :=
  .bind hp fun a => (hf a).mono fun _ _ hvs _ hus => hus.block hvs

theorem finishStage_stays (stage : ShaderType) (entryPoint : String) :
    Stays (finishStage (σ := σ) stage entryPoint) := by
  refine .bind (fun _ => rfl) fun close => .bind (fun _ => rfl) fun draft => ?_
  split
  · exact fun _ => rfl
  split
  · exact fun _ => rfl
  · exact .bind (fun _ => rfl) fun _ => .noteIf _ _

theorem finishDialect_stays : Stays (finishDialect (σ := σ)) :=
  .bind (fun _ => rfl) fun _ => .bind (fun _ => rfl) fun _ => .noteIf _ _

theorem finishTexture_stays (name : String) : Stays (finishTexture (σ := σ) name) :=
  .bind (fun _ => rfl) fun _ => .bind (fun _ => rfl) fun _ => .bind (fun _ => rfl) fun _ =>
    .failIf _ _ _

omit [RenderSystem σ] in
theorem attributeBlock_reads (b : Unit) (t : Token) :
    Reads m (attributeBlock (σ := σ) b t) fun _ vs => Balanced vs := by
  unfold attributeBlock
  split
  · exact .unexpectedName t
  · refine headed_reads (attributeHeader_reads _) fun a =>
      .bind (blockBody_reads stacks_balanced componentLine_reads a) fun a =>
      .stays (fun _ => rfl) fun _ us hus => ?_
    rw [List.append_nil]
    exact hus

theorem stageBlock_reads (b : Unit) (t : Token) :
    Reads m (stageBlock (σ := σ) b t) fun _ vs => Balanced vs := by
  unfold stageBlock
  split
  · exact .unexpectedName t
  · refine headed_reads (stageHeader_reads _) fun entryPoint =>
      .bind (blockBody_reads stacks_balanced stageLine_reads ()) fun _ =>
      .stays (finishStage_stays _ _) fun _ us hus => ?_
    rw [List.append_nil]
    exact hus

/-- Skipping a dialect may pass a `}` before its block. -/
theorem dialectBlock_reads (b : Unit) (t : Token) :
    Reads m (dialectBlock (σ := σ) b t) fun _ vs => Sinks vs := by
  unfold dialectBlock
  split
  · exact .unexpectedName t
  · refine .bind_stays (fun _ => rfl) fun backend => ?_
    split
    · refine .bind_stays (fun _ => rfl) fun _ => skipBlock_reads.mono ?_
      rintro _ vs ⟨before, block, rfl, hbefore, hblock⟩
      exact (sinks_of_no_leftBrace hbefore).append hblock.balanced.sinks
    · refine .bind (block_reads stageBlock_reads ()) fun _ => .stays finishDialect_stays ?_
      rintro _ us hus
      rw [List.append_nil]
      exact hus.balanced.sinks

/-! ## Declarations -/

omit [RenderSystem σ] in
theorem unsupportedShader_reads (name : Token) :
    Reads m (unsupportedShader (σ := σ) name) fun _ vs => Sinks vs := by
  refine .bind_stays (fun _ => rfl) fun _ => skipBlock_reads.mono ?_
  rintro _ vs ⟨before, block, rfl, hbefore, hblock⟩
  exact (sinks_of_no_leftBrace hbefore).append hblock.balanced.sinks

theorem shader_reads : Reads m (shader (σ := σ)) fun _ vs => Sinks vs := by
  refine .bind declaredName_reads fun name => .bind_stays (fun _ => rfl) fun supported => ?_
  split
  · refine (unsupportedShader_reads name).mono ?_
    rintro _ vs hvs us ⟨hkind, rfl⟩
    exact (Plain.singleton (Token.isBrace_of_string hkind)).balanced.sinks.append hvs
  · refine .bind (shaderHeader_reads name) fun _ =>
      (blockBody_reads stacks_sinks dialectBlock_reads ()).mono ?_
    rintro _ vs hvs us hus ts ⟨hkind, rfl⟩
    exact (hus hkind).heading.sinks hvs

theorem declaration_reads (b : Unit) (t : Token) :
    Reads m (declaration (σ := σ) b t) fun _ vs => Sinks vs := by
  have sinks : ∀ {p : Parser (Scene σ) Unit}, Reads m p (fun _ vs => Balanced vs) →
      Reads m p fun _ vs => Sinks vs := fun hp => hp.mono fun _ _ h => h.sinks
  unfold declaration
  split
  · exact sinks (headed_reads (materialHeader_reads.mono fun _ _ => Named.heading) fun _ =>
      blockBody_reads stacks_balanced materialLine_reads ())
  · exact shader_reads
  · exact sinks (headed_reads (vertexFormatHeader_reads.mono fun _ _ => Named.heading) fun _ =>
      blockBody_reads stacks_balanced attributeBlock_reads ())
  · refine sinks (headed_reads (textureHeader_reads.mono fun _ _ => Named.heading) fun name =>
      .bind (blockBody_reads stacks_balanced textureLine_reads ()) fun _ =>
      .stays (finishTexture_stays name) fun _ us hus => ?_)
    rw [List.append_nil]
    exact hus
  · exact sinks (headed_reads (textureLayerHeader_reads.mono fun _ _ => Named.heading) fun _ =>
      blockBody_reads stacks_balanced layerLine_reads ())
  · exact .unexpectedName t

theorem declaration_endsOn (b : Unit) (t : Token) :
    EndsOn (declaration (σ := σ) b t) fun _ c => c.isSymbol .rightBrace := by
  unfold declaration
  split
  · exact .bind fun _ => blockBody_endsOn materialLine ()
  · refine .bind fun name => .bind fun supported => ?_
    split
    · exact .bind fun _ => skipBlock_endsOn
    · exact .bind fun _ => blockBody_endsOn dialectBlock ()
  · exact .bind fun _ => blockBody_endsOn attributeBlock ()
  · exact .bind fun name => .bind_stays (blockBody_endsOn textureLine ()) fun _ =>
      finishTexture_stays name
  · exact .bind fun _ => blockBody_endsOn layerLine ()
  · exact .of_refuses (.unexpectedName t)

end Grammar

end Parser

end MaterialScript
