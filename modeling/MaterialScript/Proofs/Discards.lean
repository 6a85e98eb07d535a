/-
Discarded blocks make no difference to a load.

A block to discard may be put in wherever a load awaits a declaration or a line of a
block (`AwaitsLine`). Up to there both scripts are read alike: the word that opens it
is no symbol, so what is looked ahead at after a value makes no difference
(`State.Swapped.tandem`). There it is passed, and nothing but the place is changed
(`Discards.lines_run`). From there on the scripts are the same again, and both are
read from the same scene (`AwaitsLine.discards_sameRun`).
-/
import MaterialScript.Proofs.Abreast
import MaterialScript.Proofs.Continuation
import MaterialScript.Proofs.Nesting
import MaterialScript.Proofs.Tandem
import MaterialScript.RenderSystem.Recorder

namespace MaterialScript

namespace Parser

/-- A block to discard: its body is any tokens in which all brackets are balanced, the end of the
file apart. Whitespace may stand before its `{`. -/
inductive Discards : List Token → Prop
  | block {word opening close : Token} {gap body : List Token} : word.isName "discard" →
      (∀ t ∈ gap, t.kind.isWhitespace) → opening.isSymbol .leftBrace → Brackets.Nested body →
      (∀ t ∈ body, t.isEndOfFile = false) → close.isSymbol .rightBrace →
      Discards (word :: (gap ++ opening :: (body ++ [close])))

/-! ## One block -/

section Block

variable {ρ β : Type}

/-- The loop only goes on to other tokens, whatever it makes of them. -/
theorem overTokens_moves {α : Type} {body : α → Token → Parser ρ (Progress α β)}
    {finish : α → Token → Parser ρ β} (hbody : ∀ a t s, ((body a t).run s).2 = s)
    (hfinish : ∀ a t s, ((finish a t).run s).2 = s) (a : α) (s : State ρ) :
    ∃ c, ((overTokens body finish a).run s).2 = { s with cursor := c } := by
  refine runOverTokens_keeps (I := fun u => ∃ c, u = { s with cursor := c }) ?_
    (fun a t u hu => (hbody a t u).symm ▸ hu) (fun a t u hu => (hfinish a t u).symm ▸ hu) ⟨_, rfl⟩
  rintro u ⟨c, rfl⟩
  exact ⟨c.advance true, rfl⟩

/-- Skipping changes nothing but the place. -/
theorem skipBlock_moves (s : State ρ) : ∃ c, (skipBlock.run s).2 = { s with cursor := c } := by
  obtain ⟨c, hseek⟩ : ∃ c, (seekBrace.run s).2 = { s with cursor := c } :=
    overTokens_moves (fun _ _ _ => rfl) (fun _ _ _ => rfl) () s
  rw [skipBlock, run_bind]
  rcases hrun : seekBrace.run s with ⟨e | _, u⟩ <;> rw [hrun] at hseek
  · exact ⟨c, hseek⟩
  · obtain rfl : u = _ := hseek
    obtain ⟨d, hskip⟩ : ∃ d, (skipToClose.run { s with cursor := c }).2 =
        { s with cursor := d } :=
      overTokens_moves (fun _ _ _ => rfl) (fun _ _ _ => rfl) 0 { s with cursor := c }
    exact ⟨d, hskip⟩

variable {s : State ρ} {c : Cursor} {ts gap body more : List Token} {opening close : Token}

theorem State.eq_past (h : s.cursor.Passes ts c)
    (hbreaks : c.lineBreaksCount = s.cursor.lineBreaksCount) :
    { s with cursor := c } = s.past ts [] := by
  obtain ⟨passed, rest, m⟩ := c
  obtain ⟨hrest, hpassed⟩ := h
  obtain rfl : m = _ := hbreaks
  simp_all [State.past]

theorem skipBlock_past (hrest : s.cursor.rest = gap ++ opening :: (body ++ close :: more))
    (hgap : ∀ t ∈ gap, t.kind.isWhitespace) (hopen : opening.isSymbol .leftBrace)
    (hbody : Brackets.Nested body) (hends : ∀ t ∈ body, t.isEndOfFile = false)
    (hclose : close.isSymbol .rightBrace) :
    skipBlock.run s = (.ok (), s.past (gap ++ opening :: (body ++ [close])) []) := by
  have hskips : ∀ t ∈ gap, Cursor.skipsWhen false t := fun t ht =>
    (Cursor.skipsWhen_false t).trans (hgap t ht)
  have hgapEnds : ∀ t ∈ gap, t.isEndOfFile = false := by
    intro t ht
    rw [Bool.eq_false_iff]
    intro heof
    have hskip := hskips t ht
    rw [Cursor.not_skipsWhen_of_isEndOfFile heof] at hskip
    cases hskip
  obtain ⟨u, hrun, hu⟩ := skipBlock_passes_within hrest
    (fun t ht => isSymbol_of_skipsWhen (hskips t ht) _) hopen
    (Brackets.balanced_of_check hbody.check_eq) hclose (List.forall_mem_append.2 ⟨hgapEnds, hends⟩)
  obtain ⟨c, hmoved⟩ := skipBlock_moves s
  rw [hrun] at hmoved
  obtain rfl : u = _ := hmoved
  rw [hrun, State.eq_past hu (onward_of_run hrun).lineBreaks]
  simp

end Block

section Load

variable {σ β : Type}

theorem Discards.exists_word {ins : List Token} (h : Discards ins) :
    ∃ word more, ins = word :: more ∧ word.kind = .name := by
  cases h with
  | block hword => exact ⟨_, _, rfl, Token.kind_of_isName hword⟩

/-- **A loop over lines passes a block to discard**, and goes on from there as it was. -/
theorem Discards.lines_run {closing : TokenKind} {named : β → Token → Parser (Scene σ) β} {b : β}
    {s : State (Scene σ)} {gap ins more : List Token} (h : Discards ins)
    (hclosing : closing ≠ .name) (hm : s.cursor.lineBreaksCount = false)
    (hrest : s.cursor.rest = gap ++ (ins ++ more))
    (hgap : ∀ t ∈ gap, t.kind.isWhitespace) :
    (lines closing named b).run s = (lines closing named b).run (s.past (gap ++ ins) []) := by
  have blank : ∀ {ts : List Token}, (∀ t ∈ ts, t.kind.isWhitespace) →
      ∀ t ∈ ts, Cursor.skipsWhen false t := fun hts t ht =>
    (Cursor.skipsWhen_false t).trans (hts t ht)
  cases h with
  | @block word opening close gap' body hword hgap' hopen hbody hends hclose =>
    have hkind := Token.kind_of_isName hword
    have hseen : Cursor.skipsWhen false word = false := by simp [Cursor.skipsWhen, hkind]
    simp only [List.cons_append] at hrest
    have hadvance := advance_seen hm hrest (blank hgap) hseen
    have hafter : (s.advance true).cursor.rest =
        gap' ++ opening :: (body ++ close :: more) := by
      rw [hadvance, s.rest_past (by simpa using hrest)]
    have hpeek : (s.advance true).cursor.peek true = opening := by
      have hstep := advance_seen (s := s.advance true) hm hafter (blank hgap')
        (skipsWhen_of_isSymbol hopen)
      change ((s.advance true).advance true).cursor.current = opening
      rw [hstep, State.current_past]
    have hline : (line named b (s.advance true).cursor.current).run (s.advance true) =
        (.ok b, (s.advance true).past (gap' ++ opening :: (body ++ [close])) []) := by
      have hcurrent : (s.advance true).cursor.current = word := by
        rw [hadvance, State.current_past]
      rw [hcurrent, line_discard hword, run_bind, discardedBlock_run (by rw [hpeek]; exact hopen),
        skipBlock_past hafter hgap' hopen hbody hends hclose]
      rfl
    rw [lines_line (not_atEnd_of_seen hm hrest (blank hgap) hseen
        (by simp [Token.isEndOfFile, hkind]))
      (by rw [hadvance, State.current_past, hkind]; exact hclosing.symm) hline, hadvance]
    simp

end Load

/-! ## The rest of a script -/

section Script

variable {σ : Type} [RenderSystem σ] {s₀ t₀ u v : State (Scene σ)} {kind : BlockKind}
  {name : String} {k : kind.Carried → Parser (Scene σ) Unit}

/-- A script started in `s₀` comes to await a declaration, or a line of a block that it reads, in a
state; it may also be the end of the script or of the block that comes. -/
inductive AwaitsLine (s₀ : State (Scene σ)) : State (Scene σ) → Prop
  | top {v : State (Scene σ)} : Turns none s₀ v → AwaitsLine s₀ v
  | within {kind : BlockKind} {u v : State (Scene σ)} : Entered s₀ kind u → Turns (some kind) u v →
      AwaitsLine s₀ v

theorem AwaitsLine.onward (h : AwaitsLine s₀ v) : s₀.Onward v := by
  cases h with
  | top hturn => exact hturn.onward
  | within hentered hturn => exact hentered.opens.1.trans hturn.onward

theorem Turns.of_block (h : Turns (some kind) u v) :
    ∃ c, Turn (.symbol .rightBrace) kind.line kind.initial u c v := by
  cases kind <;> exact h

/-- What is left to do after a block is made of the operations of a script. -/
theorem InBlock.rest_composed (h : InBlock s₀ kind name u k) (c : kind.Carried) :
    Composed SceneChange True (k c) := by
  induction h with
  | material => exact script_composed
  | shader => exact script_composed
  | dialect _ _ _ ih =>
    exact .bind finishDialect_composed.ofLine fun _ =>
      .bind (BlockKind.shader.lines_composed ()).ofLine fun c => ih c
  | stage _ _ _ _ ih =>
    exact .bind (finishStage_composed _ _).ofLine fun _ =>
      .bind (BlockKind.dialect.lines_composed ()).ofLine fun c => ih c
  | vertexFormat => exact script_composed
  | component _ _ _ _ ih =>
    exact .bind (.build (.line (.vertexFormat _))) fun _ =>
      .bind (BlockKind.vertexFormat.lines_composed ()).ofLine fun c => ih c
  | texture => exact .bind (finishTexture_composed _).ofDeclaration fun _ => script_composed
  | filter _ _ _ _ ih =>
    exact .bind (BlockKind.texture.lines_composed ()).ofLine fun c => ih c
  | textureLayer => exact script_composed

/-- What is left of a script where it awaits a line: the lines of a loop, from a turn of it on, and
what comes after them. -/
structure Remainder (σ : Type) [RenderSystem σ] where
  Carried : Type
  closing : TokenKind
  named : Carried → Token → Parser (Scene σ) Carried
  carried : Carried
  after : Carried → Parser (Scene σ) Unit
  closing_ne_name : closing ≠ .name
  named_composed : ∀ c t, Composed SceneChange True (named c t)
  after_composed : ∀ c, Composed SceneChange True (after c)

namespace Remainder

variable (r : Remainder σ) {s t : State (Scene σ)} {gap ins more : List Token}

/-- Reads what is left. -/
def parser : Parser (Scene σ) Unit := do
  let c ← lines r.closing r.named r.carried
  r.after c

theorem run_discards (h : Discards ins) (hm : s.cursor.lineBreaksCount = false)
    (hrest : s.cursor.rest = gap ++ (ins ++ more)) (hgap : ∀ t ∈ gap, t.kind.isWhitespace) :
    r.parser.run s = r.parser.run (s.past (gap ++ ins) []) := by
  rw [parser, run_bind, h.lines_run r.closing_ne_name hm hrest hgap]
  rfl

theorem run_blank (hm : s.cursor.lineBreaksCount = false) (hrest : s.cursor.rest = gap ++ more)
    (hmore : more ≠ []) (hgap : ∀ t ∈ gap, t.kind.isWhitespace) :
    r.parser.run s = r.parser.run (s.past gap []) := by
  have hlines : (lines r.closing r.named r.carried).run s =
      (lines r.closing r.named r.carried).run (s.past gap []) := by
    obtain ⟨⟨passed, rest, m⟩, bindings, journal, scene⟩ := s
    obtain rfl : m = false := hm
    obtain rfl : rest = _ := hrest
    have hskips : (lines r.closing r.named r.carried).run
        ⟨⟨passed, gap ++ more, false⟩, bindings, journal, scene⟩ =
        (lines r.closing r.named r.carried).run
          ⟨⟨gap.reverse ++ passed, more, false⟩, bindings, journal, scene⟩ :=
      runOverTokens_skips hmore gap ⟨⟨passed, gap ++ more, false⟩, bindings, journal, scene⟩
        fun t ht => (Cursor.skipsWhen_false t).trans (hgap t ht)
    simpa [State.past] using hskips
  rw [parser, run_bind, hlines]
  rfl

/-- It does the same to the same scene in the same place. -/
theorem run_abreast (h : SameStep (State.Abreast [] [] Eq) s t) :
    SameRun (State.Abreast [] [] Eq) (r.parser.run s) (r.parser.run t) := by
  have same : ∀ {α : Type} {p : Parser (Scene σ) α}, Composed SceneChange True p →
      Composed (Respects Eq) True p := fun hp =>
    hp.mono fun _ _ _ x y hxy => hxy ▸ ⟨rfl, rfl⟩
  refine (lines_abreast (fun c x _ _ h => (same (r.named_composed c x)).abreast h) _ h).bind
    (fun _ _ => id) fun c _ _ h => ?_
  exact (same (r.after_composed c)).abreast h

end Remainder

/-- **Where a script awaits a line, one that is the same up to there does so too**, and both have
the same left to do. -/
theorem AwaitsLine.remainder {R : State (Scene σ) → State (Scene σ) → Prop} {n : Nat}
    (hR : Tandem R n) (h : AwaitsLine s₀ v) (hst : R s₀ t₀) (hv : n ≤ v.cursor.rest.length) :
    ∃ (r : Remainder σ) (w : State (Scene σ)), R v w ∧ script.run s₀ = r.parser.run v ∧
      script.run t₀ = r.parser.run w := by
  cases h with
  | top hturn =>
    obtain ⟨b, hturn⟩ := hturn
    have hturn : Turn .endOfFile declaration () s₀ b v := hturn
    obtain ⟨w, hturn', hvw⟩ := hturn.repeats hR declaration_steady hst hv
    refine ⟨⟨Unit, .endOfFile, declaration, b, fun _ => pure (), nofun, declaration_composed,
      fun _ => .pure ()⟩, w, hvw, ?_, ?_⟩
    · rw [Remainder.parser, run_bind_pure]
      exact hturn.run_eq
    · rw [Remainder.parser, run_bind_pure]
      exact hturn'.run_eq
  | within hentered hturn =>
    obtain ⟨name, k, hblock⟩ := hentered.inBlock
    obtain ⟨c, hturn⟩ := hturn.of_block
    obtain ⟨u', hblock', huu'⟩ :=
      hblock.repeats hR hst (hv.trans hturn.onward.leads.length_rest_le)
    obtain ⟨w, hturn', hvw⟩ := hturn.repeats hR (BlockKind.line_steady _) huu' hv
    refine ⟨⟨_, .symbol .rightBrace, BlockKind.line _, c, k, nofun,
      fun c t => (BlockKind.line_composed _ c t).ofLine, hblock.rest_composed⟩, w, hvw, ?_, ?_⟩
    · rw [hblock.run_eq, BlockKind.lines, run_bind, blockBody, hturn.run_eq]
      rfl
    · rw [hblock'.run_eq, BlockKind.lines, run_bind, blockBody, hturn'.run_eq]
      rfl

/-- A script and the same with a block to discard where it awaits a line. -/
theorem AwaitsLine.discards_sameRun {gap ins more : List Token} (h : AwaitsLine s₀ v)
    (hm : v.cursor.lineBreaksCount = false) (hrest : v.cursor.rest = gap ++ more)
    (hgap : ∀ t ∈ gap, t.kind.isWhitespace) (hmore : more ≠ []) (hins : Discards ins)
    (hst : s₀.Swapped more (ins ++ more) t₀) :
    SameRun (State.Abreast [] [] Eq) (script.run s₀) (script.run t₀) := by
  obtain ⟨word, behind, rfl, hword⟩ := hins.exists_word
  have hlength : more.length ≤ v.cursor.rest.length := by simp [hrest]
  obtain ⟨r, w, ⟨ts, hts, rfl⟩, hleft, hright⟩ :=
    h.remainder (State.Swapped.tandem hmore hword) hst hlength
  obtain rfl : gap = ts := List.append_cancel_right (hrest.symm.trans hts)
  have hpassed : script.run t₀ =
      r.parser.run ((v.withRest (gap ++ (word :: behind ++ more))).past
        (gap ++ word :: behind) []) :=
    hright.trans (r.run_discards hins hm rfl hgap)
  rw [hleft, hpassed, r.run_blank hm hrest hmore hgap]
  have hleaves : (v.past gap []).cursor.rest = more := v.rest_past hrest []
  have hleaves' : ((v.withRest (gap ++ (word :: behind ++ more))).past
      (gap ++ word :: behind) []).cursor.rest = more :=
    State.rest_past _ (by simp [State.withRest]) []
  exact r.run_abreast (State.Beside.step
    ⟨hleaves'.trans hleaves.symm, rfl, rfl, ⟨_, rfl, rfl⟩, rfl⟩ (hleaves ▸ hmore))

end Script

end Parser

/-! ## Loads -/

/-- The end of the file is all that closing a sequence may add. -/
theorem Cursor.exists_closed (tokens : List Token) :
    ∃ ending, closed tokens = tokens ++ ending ∧ ∀ t ∈ ending, t.isEndOfFile := by
  unfold closed
  split
  · rename_i hnone
    rw [List.getLast?_eq_none_iff.1 hnone]
    exact ⟨_, rfl, by simp [Token.isEndOfFile, Token.bare]⟩
  · split
    · exact ⟨[], by simp, by simp⟩
    · exact ⟨_, rfl, by simp [Token.isEndOfFile, Token.bare]⟩

theorem Brackets.isBracket_of_isWhitespace {t : Token} (h : t.kind.isWhitespace) :
    isBracket t = false := by
  unfold TokenKind.isWhitespace at h
  split at h <;> simp_all [isBracket, symbol?]

theorem Brackets.check_closed (tokens : List Token) :
    check (Cursor.closed tokens) = check tokens := by
  obtain ⟨ending, hclosed, hending⟩ := Cursor.exists_closed tokens
  have hnested : Nested ending := .of_none fun t ht => by
    have hkind : t.kind = .endOfFile := by simpa [Token.isEndOfFile] using hending t ht
    simp [isBracket, symbol?, hkind]
  have hcheck : checkAfter [] (tokens ++ ending) = checkAfter [] (tokens ++ []) :=
    checkAfter_congr (fun stack => by simpa using hnested.checkAfter_append stack []) tokens []
  rw [hclosed, check, hcheck, List.append_nil]
  rfl

theorem Parser.Discards.nested {ins : List Token} (h : Discards ins) : Brackets.Nested ins := by
  cases h with
  | @block word opening close gap body hword hgap hopen hbody _ hclose =>
    have hopens : Brackets.Opens opening .leftBrace := by
      have hkind : opening.kind = .symbol .leftBrace := by simpa [Token.isSymbol] using hopen
      exact ⟨by simp [Brackets.symbol?, hkind], rfl⟩
    have hcloses : Brackets.Closes close .leftBrace := by
      have hkind : close.kind = .symbol .rightBrace := by simpa [Token.isSymbol] using hclose
      exact ⟨.rightBrace, by simp [Brackets.symbol?, hkind], rfl⟩
    have hfront : Brackets.Nested (word :: gap) := .of_none fun t ht => by
      rcases List.mem_cons.1 ht with rfl | ht
      · simp [Brackets.isBracket, Brackets.symbol?, Token.kind_of_isName hword]
      · exact Brackets.isBracket_of_isWhitespace (hgap t ht)
    have hblock := hfront.append (hbody.wrap hopens hcloses)
    simpa using hblock

namespace Loader

variable {σ : Type}

theorem declaresNothing_closed (tokens : List Token) :
    declaresNothing (Cursor.closed tokens) = declaresNothing tokens := by
  obtain ⟨ending, hclosed, hending⟩ := Cursor.exists_closed tokens
  have hnothing : declaresNothing ending = true :=
    List.all_eq_true.2 fun t ht => by simp [hending t ht]
  unfold declaresNothing at hnothing ⊢
  rw [hclosed, List.all_append, hnothing, Bool.and_true]

variable [RenderSystem σ] {l : Loader σ} {files : Files} {tokens tokens' gap ins more : List Token}
  {s₀ v : Parser.State (Scene σ)}

/-- A loader takes over the same from runs that end alike. -/
theorem readFrom_congr {s t : Parser.State (Scene σ)}
    (h : Parser.SameRun (Parser.State.Abreast [] [] Eq) (Parser.script.run s)
      (Parser.script.run t)) : l.readFrom t = l.readFrom s := by
  rcases hrun : Parser.script.run s with ⟨answer, u⟩
  rw [hrun] at h
  obtain ⟨w, hrun', huw⟩ := h.eq_right
  obtain ⟨told, hu, hw⟩ := huw.journal
  have habsorb : l.absorb w = l.absorb u := by
    simp only [absorb, huw.bindings, hu, hw, huw.scene]
  cases answer <;> simp only [readFrom, hrun, hrun', habsorb]

theorem readOn_discards (hstart : l.startOn? files tokens = some s₀)
    (h : Parser.AwaitsLine s₀ v) (hrest : v.cursor.rest = gap ++ more)
    (hgap : ∀ t ∈ gap, t.kind.isWhitespace) (hmore : more ≠ []) (hins : Parser.Discards ins)
    (htokens : Cursor.closed tokens' = v.cursor.passed.reverse ++ gap ++ ins ++ more) :
    l.readOn files tokens' = l.readOn files tokens := by
  obtain ⟨-, hcheck, rfl⟩ := startOn?_eq_some.1 hstart
  have hclosed : Cursor.closed tokens = v.cursor.passed.reverse ++ gap ++ more := by
    have hall : v.cursor.tokens = Cursor.closed tokens := h.onward.leads.tokens_eq
    rw [← hall, Cursor.tokens, hrest, List.append_assoc]
  have hswapped : (l.start files tokens).Swapped more (ins ++ more) (l.start files tokens') := by
    refine ⟨v.cursor.passed.reverse ++ gap, hclosed, ?_⟩
    simp only [start, Cursor.ofTokens, Parser.State.withRest, htokens, List.append_assoc]
  have hcheck' : Brackets.check tokens' = .ok () := by
    rw [← Brackets.check_closed, hclosed] at hcheck
    rw [← Brackets.check_closed, htokens, List.append_assoc _ ins, ← hcheck]
    exact Brackets.checkAfter_congr (fun stack => hins.nested.checkAfter_append stack more) _ []
  have hsomething' : declaresNothing tokens' = false := by
    obtain ⟨word, behind, rfl, hword⟩ := hins.exists_word
    rw [← declaresNothing_closed, htokens]
    simp [declaresNothing, TokenKind.isWhitespace, Token.isEndOfFile, hword]
  rw [readOn_of_startOn? hstart,
    readOn_of_startOn? (startOn?_eq_some.2 ⟨hsomething', hcheck', rfl⟩)]
  exact readFrom_congr (h.discards_sameRun h.onward.lineBreaks hrest hgap hmore hins hswapped)

/-- **Discarded blocks make no difference to a load.** Wherever a load of tokens awaits a
declaration or a line of a block that it reads, a block to discard may be put in, before, in or
after the whitespace that comes there: its body is any tokens but the end of the file in which all
brackets are balanced. The load then gives the same answer (the same error at the same place, if one
ends it) and leaves the same resources, variables, notices, drafts and render system. Sequences
without the end of the file at their end are taken as closed by it. -/
theorem readTokens_discards (hstart : l.start? files (.readTokens tokens) = some s₀)
    (h : Parser.AwaitsLine s₀ v) (hrest : v.cursor.rest = gap ++ more)
    (hgap : ∀ t ∈ gap, t.kind.isWhitespace) (hmore : more ≠ []) (hins : Parser.Discards ins)
    (htokens : Cursor.closed tokens' = v.cursor.passed.reverse ++ gap ++ ins ++ more) :
    l.readTokens files tokens' = l.readTokens files tokens :=
  readOn_discards hstart h hrest hgap hmore hins htokens

/-- A block with what no script may hold, right after a string on its line. -/
theorem readTokens_discards_texture :
    let name (text : String) : Token := ⟨.name, text, .start⟩
    let symbol (s : Symbol) : Token := .bare (.symbol s) .start
    let front := [name "texture", ⟨.string, "t", .start⟩, symbol .leftBrace, name "imageFile",
      ⟨.string, "a", .start⟩]
    let body := [symbol .plus, symbol .leftBrace, name "shader", symbol .rightBrace,
      symbol .atSign]
    let ins := name "discard" :: ([] ++ symbol .leftBrace :: (body ++ [symbol .rightBrace]))
    let more := [.bare .newline .start, symbol .rightBrace, .bare .endOfFile .start]
    let files : Files := fun _ => .error .notFound
    let l := Loader.new Recorder.default "/"
    let s₀ := l.begin.start files (front ++ more)
    let u := (Parser.textureHeader.run (s₀.advance true)).2
    let v := ((Parser.line Parser.textureLine () (u.advance true).cursor.current).run
      (u.advance true)).2
    l.start? files (.readTokens (front ++ more)) = some s₀ ∧ Parser.AwaitsLine s₀ v ∧
      v.cursor.passed.reverse = front ∧ v.cursor.rest = more ∧ Parser.Discards ins ∧
      l.readTokens files (front ++ ins ++ more) = l.readTokens files (front ++ more) := by
  intro name symbol front body ins more files l s₀ u v
  have hstart : l.start? files (.readTokens (front ++ more)) = some s₀ := rfl
  have hs : Parser.Declares s₀ "texture" (s₀.advance true) :=
    ⟨.here (by decide +kernel) (by decide +kernel) (by decide +kernel), by decide +kernel⟩
  have hheader : (Parser.textureHeader.run (s₀.advance true)).1 = .ok "t" := by decide +kernel
  have hline : ((Parser.line Parser.textureLine () (u.advance true).cursor.current).run
      (u.advance true)).1 = .ok () := by decide +kernel
  have hturn : Parser.Turn (.symbol .rightBrace) Parser.textureLine () u () v :=
    .next (by decide +kernel) (by decide +kernel) (Parser.run_of_answer hline) .first
  have hawaits : Parser.AwaitsLine s₀ v :=
    .within (.texture hs (Parser.run_of_answer hheader)) ⟨(), hturn⟩
  have hpassed : v.cursor.passed.reverse = front := by decide +kernel
  have hrest : v.cursor.rest = [] ++ more := by decide +kernel
  have hnested : Brackets.Nested body := by
    have hbrackets : body.filter Brackets.isBracket = [symbol .leftBrace] ++ [symbol .rightBrace] :=
      rfl
    rw [Brackets.Nested, hbrackets]
    exact .pair ⟨rfl, rfl⟩ ⟨.rightBrace, rfl, rfl⟩ .nil .nil
  have hins : Parser.Discards ins :=
    .block rfl (List.forall_mem_nil _) rfl hnested (by decide +kernel) rfl
  have hclosed : Cursor.closed (front ++ ins ++ more) =
      v.cursor.passed.reverse ++ [] ++ ins ++ more := by
    rw [hpassed, List.append_nil]
    rfl
  exact ⟨hstart, hawaits, hpassed, hrest, hins,
    readTokens_discards hstart hawaits hrest (List.forall_mem_nil _) (List.cons_ne_nil _ _) hins
      hclosed⟩

end Loader

end MaterialScript
