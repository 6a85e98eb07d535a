/-
What a load skips.

A load skips a block instead of reading it in three places: after `discard`,
for the dialect of another render system, and for a shader where shaders are
not supported (`Skips`). Where the `{` of the block stands in its place, the
tokens passed are the block's own (`skip_run`). Where it does not, `discard`
is refused as any line is; the other two go on to the next `{`, whatever
stands before it, and skip the block that opens there instead. That is a defect:
a shader that would be refused where it is read takes the next declaration with
it where it is skipped (`readSource_shader_without_brace`).
-/
import MaterialScript.Proofs.Closing

namespace MaterialScript

open Braces

namespace Braces

/-- Where there are more `}` than `{`, one of them closes the block that is open. -/
theorem exists_close {ts : List Token} (depth : Nat) (h : (depth : Int) + net ts < 0) :
    ∃ inside close after, ts = inside ++ close :: after ∧ close.isSymbol .rightBrace ∧
      (∀ p, p <+: inside → 0 ≤ (depth : Int) + net p) ∧ (depth : Int) + net inside = 0 := by
  induction ts generalizing depth with
  | nil =>
    rw [net_nil] at h
    omega
  | cons t ts ih =>
    rcases Parser.closeBrace_cases depth t with ⟨next, -, hnext⟩ | ⟨-, rfl, hclose⟩
    · rw [net_cons] at h
      obtain ⟨inside, close, after, rfl, hclose, hsane, hsettled⟩ := ih next (by omega)
      refine ⟨t :: inside, close, after, rfl, hclose, fun p hp => ?_, by rw [net_cons]; omega⟩
      rcases List.prefix_cons_iff.1 hp with rfl | ⟨q, rfl, hq⟩
      · simp
      · have := hsane q hq
        rw [net_cons]
        omega
    · refine ⟨[], t, ts, rfl, hclose, fun p hp => ?_, rfl⟩
      rw [List.prefix_nil.1 hp]
      exact Int.le_refl 0

/-- In a balanced sequence a block starts at every `{`. -/
theorem Balanced.exists_block {front after : List Token} {opening : Token}
    (h : Balanced (front ++ opening :: after)) (hopen : opening.isSymbol .leftBrace) :
    ∃ inside close rest, after = inside ++ close :: rest ∧ Balanced inside ∧
      close.isSymbol .rightBrace := by
  have hfront := h.sane front (List.prefix_append ..)
  have hall := h.settled
  rw [net_append, net_cons, Token.depthChange_of_isSymbol_leftBrace hopen] at hall
  obtain ⟨inside, close, rest, heq, hclose, hsane, hsettled⟩ :=
    @exists_close after 0 (by omega)
  exact ⟨inside, close, rest, heq, ⟨by simpa using hsane, by simpa using hsettled⟩, hclose⟩

end Braces

namespace Parser

variable {ρ α β : Type} {m : Bool}

/-! ## Tokens seen ahead -/

theorem exists_of_visible {ts vs : List Token} {t : Token} (h : visible m ts = t :: vs) :
    ∃ gap after, ts = gap ++ t :: after ∧ (∀ x ∈ gap, Cursor.skipsWhen m x) ∧
      Cursor.skipsWhen m t = false ∧ visible m after = vs := by
  obtain ⟨gap, after, rfl, hgap, ht, hafter⟩ := List.filter_eq_cons_iff.1 h
  exact ⟨gap, after, rfl, by simpa using hgap, by simpa using ht, hafter⟩

/-- The first token that can be seen is the next one read. -/
theorem advance_of_visible {s : State ρ} {t : Token} {vs : List Token}
    (h : visible s.cursor.lineBreaksCount s.cursor.rest = t :: vs) :
    (s.advance true).cursor.current = t ∧
      visible s.cursor.lineBreaksCount (s.advance true).cursor.rest = vs ∧
      ∃ ts, s.cursor.Passes ts (s.advance true).cursor ∧
        visible s.cursor.lineBreaksCount ts = [t] := by
  obtain ⟨gap, after, hrest, hgap, ht, hafter⟩ := exists_of_visible h
  obtain ⟨hcurrent, hpasses⟩ := advance_of_gap hrest hgap ht
  refine ⟨hcurrent, ?_, gap ++ [t], hpasses, ?_⟩
  · rw [hpasses.rest_eq (by simpa using hrest), hafter]
  · rw [visible_append, visible_of_skipped hgap, visible_singleton ht, List.nil_append]

theorem declaredName_run {s : State ρ} {t : Token} {vs : List Token}
    (h : visible s.cursor.lineBreaksCount s.cursor.rest = t :: vs) (hkind : t.kind = .string)
    (htext : t.text ≠ "") : declaredName.run s = (.ok t, s.advance true) := by
  have hcurrent := (advance_of_visible h).1
  have hnext : next.run s = (.ok t, s.advance true) := by
    rw [next, run_bind]
    simp only [take, hcurrent]
    rw [unlessEnd, if_neg (by simp [Token.isEndOfFile, hkind])]
    rfl
  rw [declaredName, run_bind, hnext]
  simp [hkind, htext]

/-! ## Skipping -/

theorem isSymbol_of_skipsWhen {t : Token} (h : Cursor.skipsWhen m t) (symbol : Symbol) :
    t.isSymbol symbol = false := by
  unfold Cursor.skipsWhen at h
  split at h <;> simp_all [Token.isSymbol]

/-- `p` succeeds and passes the tokens `front` and the block from `opening` to the `}` that closes
it; `after` is what follows the `{`. -/
def PassesBlock (p : Parser ρ α) (s : State ρ) (front : List Token) (opening : Token)
    (after : List Token) : Prop :=
  ∃ inside close rest a u, after = inside ++ close :: rest ∧ Balanced inside ∧
    close.isSymbol .rightBrace ∧ p.run s = (.ok a, u) ∧ u.cursor.current = close ∧
    ∃ ts, s.cursor.Passes ts u.cursor ∧
      visible s.cursor.lineBreaksCount ts = front ++ opening :: inside ++ [close]

/-- What `q` passes after the tokens `ts`, `p` passes if it succeeds with it. -/
theorem PassesBlock.of_run {p : Parser ρ α} {q : Parser ρ β} {s v : State ρ} {front : List Token}
    {opening : Token} {after ts : List Token} (h : PassesBlock q v front opening after)
    (hts : s.cursor.Passes ts v.cursor)
    (hbreaks : v.cursor.lineBreaksCount = s.cursor.lineBreaksCount)
    (hrun : ∀ ⦃b u⦄, q.run v = (.ok b, u) → ∃ a, p.run s = (.ok a, u)) :
    PassesBlock p s (visible s.cursor.lineBreaksCount ts ++ front) opening after := by
  obtain ⟨inside, close, rest, b, u, hafter, hinside, hclose, hq, hcurrent, us, hus, hseen⟩ := h
  obtain ⟨a, hp⟩ := hrun hq
  refine ⟨inside, close, rest, a, u, hafter, hinside, hclose, hp, hcurrent, ts ++ us, hts.trans hus,
    ?_⟩
  rw [visible_append, ← hbreaks, hseen]
  simp

/-- Skipping passes what stands before the next `{`, and the block that starts there. -/
theorem skipBlock_visible {s : State ρ} {before after : List Token} {opening : Token}
    (hends : EndsOnce s.cursor.tokens) (hbalanced : Balanced s.cursor.tokens)
    (hrest : visible s.cursor.lineBreaksCount s.cursor.rest = before ++ opening :: after)
    (hbefore : ∀ t ∈ before, t.isSymbol .leftBrace = false) (hopen : opening.isSymbol .leftBrace) :
    PassesBlock skipBlock s before opening after := by
  obtain ⟨seen, ahead, hsplit, rfl, hahead⟩ := List.filter_eq_append_iff.1 hrest
  obtain ⟨gap, behind, rfl, hgap, -, rfl⟩ := exists_of_visible hahead
  rw [← List.append_assoc] at hsplit
  rw [Cursor.tokens, hsplit] at hbalanced
  obtain ⟨inside, close, rest, rfl, hinside, hclose⟩ :=
    (show Balanced ((s.cursor.passed.reverse ++ (seen ++ gap)) ++ opening :: behind) by
      simpa using hbalanced).exists_block hopen
  have hnone : ∀ t ∈ seen ++ gap, t.isSymbol .leftBrace = false := by
    intro t ht
    rcases List.mem_append.1 ht with ht | ht
    · cases hskip : Cursor.skipsWhen s.cursor.lineBreaksCount t with
      | true => exact isSymbol_of_skipsWhen hskip _
      | false => exact hbefore t (List.mem_filter.2 ⟨ht, by simp [hskip]⟩)
    · exact isSymbol_of_skipsWhen (hgap t ht) _
  obtain ⟨u, hrun, hu⟩ := skipBlock_passes hends hsplit hnone hopen hinside hclose
  refine ⟨visible s.cursor.lineBreaksCount inside, close, visible s.cursor.lineBreaksCount rest, (),
    u, ?_, hinside.filter fun _ => isBrace_of_not_visible, hclose, hrun, ?_, _, hu, ?_⟩
  · rw [visible_append, visible_cons_of_isSymbol hclose]
  · simp [Cursor.current, hu.passed]
  · simp only [visible_append, visible_of_isSymbol hopen, visible_of_isSymbol hclose,
      visible_of_skipped hgap, List.append_assoc]
    rfl

/-- At its end a loop is handed the last token. -/
theorem State.AtEnd.getLast?_eq {s : State ρ} (h : s.AtEnd) (hends : EndsOnce s.cursor.tokens) :
    s.cursor.tokens.getLast? = some (s.advance true).cursor.current := by
  obtain ⟨ts, hts, -, heof⟩ := Reads.step_of_atEnd hends.ends h
  have hrest := Cursor.rest_of_isEndOfFile (hts.endsOnce hends) heof
  have hkind : (s.advance true).cursor.current.kind = .endOfFile := by
    simpa [Token.isEndOfFile] using heof
  obtain ⟨before, hpassed⟩ := Cursor.exists_passed (c := (s.advance true).cursor) (by simp [hkind])
  rw [← hts.tokens_eq, Cursor.tokens, hrest, hpassed]
  simp

/-- Without a `{` ahead, seeking one fails at the end of the file. -/
theorem seekBrace_fails {s : State ρ} (hends : EndsOnce s.cursor.tokens)
    (hnone : ∀ t ∈ s.cursor.rest, t.isSymbol .leftBrace = false) :
    ∃ last u, s.cursor.tokens.getLast? = some last ∧
      seekBrace.run s = (.error (.placed last.position .unexpectedEndOfInput), u) := by
  -- seeking leads to where nothing but the end of the file is left
  obtain ⟨v, hv, hend, hseek⟩ : ∃ v : State ρ, s.cursor.Leads v.cursor ∧ v.AtEnd ∧
      seekBrace.run s = seekBrace.run v := by
    by_cases hrest : s.cursor.rest = []
    · exact ⟨s, .refl _, .inl hrest, rfl⟩
    obtain ⟨front, last, hlist⟩ : ∃ front last, s.cursor.rest = front ++ [last] :=
      ⟨_, _, (List.dropLast_append_getLast hrest).symm⟩
    rw [hlist] at hnone
    have htokens : EndsOnce ((s.cursor.passed.reverse ++ front) ++ [last]) := by
      rw [List.append_assoc, ← hlist]
      exact hends
    obtain ⟨v, hv, hrun⟩ := (scans_openBrace fun t ht => hnone t (by simp [ht])).run
      openBrace_neutral hlist (by simp) fun t ht =>
        htokens.not_isEndOfFile (by simp) t (List.mem_append_right _ ht)
    have hlast : last.isEndOfFile := by
      obtain ⟨_, e, heq, he, -⟩ := htokens
      obtain ⟨-, heq⟩ := List.append_inj' heq rfl
      cases heq
      exact he
    obtain ⟨hcurrent, -⟩ := advance_of_rest (hv.rest_eq hlist)
      (Cursor.not_skipsWhen_of_isEndOfFile hlast)
    exact ⟨v, ⟨front, hv⟩, .inr (by rw [hcurrent]; exact hlast), hrun⟩
  refine ⟨_, v.advance true, ?_, hseek.trans (runOverTokens_atEnd hend)⟩
  rw [← hv.tokens_eq] at hends ⊢
  exact hend.getLast?_eq hends

theorem skipBlock_fails {s : State ρ} (hends : EndsOnce s.cursor.tokens)
    (hnone : ∀ t ∈ s.cursor.rest, t.isSymbol .leftBrace = false) :
    ∃ last u, s.cursor.tokens.getLast? = some last ∧
      skipBlock.run s = (.error (.placed last.position .unexpectedEndOfInput), u) := by
  obtain ⟨last, u, hlast, hrun⟩ := seekBrace_fails hends hnone
  exact ⟨last, u, hlast, by rw [skipBlock, run_bind, hrun]⟩

section Seeks

variable {p : Parser ρ Unit} {s v : State ρ} {ts : List Token} (hends : EndsOnce s.cursor.tokens)
  (hts : s.cursor.Passes ts v.cursor)
  (hbreaks : v.cursor.lineBreaksCount = s.cursor.lineBreaksCount)
  (hrun : p.run s = skipBlock.run v)
include hends hts hbreaks hrun

omit hends hrun in
theorem visible_rest_after {vs : List Token}
    (h : visible s.cursor.lineBreaksCount s.cursor.rest =
      visible s.cursor.lineBreaksCount ts ++ vs) :
    visible v.cursor.lineBreaksCount v.cursor.rest = vs := by
  rw [hts.rest, visible_append] at h
  rw [hbreaks]
  exact List.append_cancel_left h

/-- What skips after the tokens `ts` passes them and what is skipped. -/
theorem passesBlock_of_seeks (hbalanced : Balanced s.cursor.tokens) {before after : List Token}
    {opening : Token}
    (hrest : visible s.cursor.lineBreaksCount s.cursor.rest =
      visible s.cursor.lineBreaksCount ts ++ before ++ opening :: after)
    (hbefore : ∀ t ∈ before, t.isSymbol .leftBrace = false) (hopen : opening.isSymbol .leftBrace) :
    PassesBlock p s (visible s.cursor.lineBreaksCount ts ++ before) opening after := by
  have hahead := visible_rest_after hts hbreaks (by rw [hrest, List.append_assoc])
  rw [← hts.tokens_eq] at hbalanced
  have hblock := skipBlock_visible (hts.endsOnce hends) hbalanced hahead hbefore hopen
  exact hblock.of_run hts hbreaks fun a u hskip => ⟨a, hrun.trans hskip⟩

theorem fails_of_seeks {after : List Token}
    (hrest : visible s.cursor.lineBreaksCount s.cursor.rest =
      visible s.cursor.lineBreaksCount ts ++ after)
    (hnone : ∀ t ∈ after, t.isSymbol .leftBrace = false) :
    ∃ last u, s.cursor.tokens.getLast? = some last ∧
      p.run s = (.error (.placed last.position .unexpectedEndOfInput), u) := by
  have hahead := visible_rest_after hts hbreaks hrest
  rw [← hts.tokens_eq, hrun]
  refine skipBlock_fails (hts.endsOnce hends) fun t ht => ?_
  cases hskip : Cursor.skipsWhen v.cursor.lineBreaksCount t with
  | true => exact isSymbol_of_skipsWhen hskip _
  | false =>
    refine hnone t ?_
    rw [← hahead]
    exact List.mem_filter.2 ⟨ht, by simp [hskip]⟩

end Seeks

/-! ## The three places -/

section Load

variable {σ : Type} [RenderSystem σ]

/-- The kinds of blocks a load skips. -/
inductive Skip where
  | discarded
  | dialect
  | shader

/-- In `s`, where a keyword has been read, `p` goes on from it, and skips its block. -/
inductive Skips (s : State (Scene σ)) : Skip → ∀ {β : Type}, Parser (Scene σ) β → Prop
  | discarded {β : Type} (named : β → Token → Parser (Scene σ) β) (b : β) :
      s.cursor.current.isName "discard" → Skips s .discarded (line named b s.cursor.current)
  | dialect {dialect : ShaderDialect} :
      ShaderDialect.ofKeyword? s.cursor.current.text = some dialect →
      (RenderSystem.backend s.scene.system).dialect? ≠ some dialect →
      Skips s .dialect (dialectBlock () s.cursor.current)
  | shader : RenderSystem.supportsShaders s.scene.system = false → Skips s .shader shader

/-- What stands after the keyword whether the block is read or skipped: the name of a shader. -/
def Skip.Start : Skip → List Token → Prop
  | shader, ts => ∃ name, name.kind = .string ∧ name.text ≠ "" ∧ ts = [name]
  | _, ts => ts = []

omit [RenderSystem σ] in
theorem discardedBlock_run {s : State (Scene σ)} (h : (s.cursor.peek true).isSymbol .leftBrace) :
    discardedBlock.run s = skipBlock.run s := by
  rw [discardedBlock, run_bind]
  simp only [peek]
  rw [if_pos h]

omit [RenderSystem σ] in
/-- A discarded block must start at once. -/
theorem discardedBlock_fails {s : State (Scene σ)}
    (h : (s.cursor.peek true).isSymbol .leftBrace = false) :
    discardedBlock.run s = (unexpected (s.cursor.peek true)).run s := by
  rw [discardedBlock, run_bind]
  simp only [peek]
  rw [if_neg (by simp [h])]

theorem dialectBlock_foreign {s : State (Scene σ)} {t : Token} {dialect : ShaderDialect}
    (hword : ShaderDialect.ofKeyword? t.text = some dialect)
    (hbackend : (RenderSystem.backend s.scene.system).dialect? ≠ some dialect) :
    ∃ notices, (dialectBlock () t).run s =
      skipBlock.run { s with journal := s.journal ++ notices } := by
  simp only [dialectBlock, hword]
  rw [run_bind]
  simp only [inspect, build]
  rw [if_pos hbackend]
  exact ⟨_, rfl⟩

theorem shader_unsupported {s u : State (Scene σ)} {name : Token}
    (hname : declaredName.run s = (.ok name, u))
    (hsupports : RenderSystem.supportsShaders u.scene.system = false) :
    ∃ notices, shader.run s = skipBlock.run { u with journal := u.journal ++ notices } := by
  rw [shader, run_bind, hname]
  simp only
  rw [run_bind]
  simp only [inspect, build, hsupports]
  exact ⟨_, rfl⟩

/-- **A skip passes the block at the next `{`.** In every load of tokens that the bracket check
accepts, with the end of the file last and nowhere else, wherever it skips a block: the tokens
passed are those from the keyword to the next `{` and the block that starts there, no more and no
less. So they are the keyword's own block where the `{` stands in its place: at once after
`discard` and after the word for a dialect, after its name and the word for a format in a shader.
Where it does not, a `discard` fails at the token found instead and leaves the state as it is. The
other two fail only if no `{` is left at all, and then at the end of the file. -/
theorem skip_run {l : Loader σ} {files : Files} {tokens : List Token}
    (hcheck : Brackets.check tokens = .ok ()) (hends : EndsOnce tokens) {s : State (Scene σ)}
    (honward : (l.start files tokens).Onward s) {kind : Skip} {p : Parser (Scene σ) β}
    (hskips : Skips s kind p) :
    (∀ front before opening after, kind.Start front →
      visible false s.cursor.rest = front ++ before ++ opening :: after →
      (∀ t ∈ before, t.isSymbol .leftBrace = false) → (kind = .discarded → before = []) →
      opening.isSymbol .leftBrace → PassesBlock p s (front ++ before) opening after) ∧
    (kind = .discarded → ∀ t, t = s.cursor.peek true → t.isSymbol .leftBrace = false →
      p.run s = (.error (.placed t.position
        (if t.isEndOfFile then .unexpectedEndOfInput else .unexpectedToken t.describe)), s)) ∧
    (kind ≠ .discarded → ∀ front after, kind.Start front →
      visible false s.cursor.rest = front ++ after →
      (∀ t ∈ after, t.isSymbol .leftBrace = false) → ∃ last u, tokens.getLast? = some last ∧
        p.run s = (.error (.placed last.position .unexpectedEndOfInput), u)) := by
  have htokens : s.cursor.tokens = tokens :=
    honward.leads.tokens_eq.trans (Cursor.rest_ofTokens hends)
  have hbreaks : s.cursor.lineBreaksCount = false := honward.lineBreaks
  have hbalanced := Brackets.balanced_of_check hcheck
  rw [← htokens] at hends hbalanced ⊢
  rw [show visible false = visible s.cursor.lineBreaksCount by rw [hbreaks]]
  cases hskips with
  | discarded named b hword =>
    rw [line_discard hword, run_bind]
    refine ⟨?_, ?_, fun h => absurd rfl h⟩
    · rintro _ before opening after rfl hrest - hnone hopen
      obtain rfl := hnone rfl
      have hpeek : s.cursor.peek true = opening := (advance_of_visible hrest).1
      have hblock := skipBlock_visible hends hbalanced hrest (by simp) hopen
      refine hblock.of_run (.refl _) rfl fun _ u hskip => ⟨b, ?_⟩
      rw [run_bind, discardedBlock_run (by rw [hpeek]; exact hopen), hskip]
      rfl
    · rintro - t rfl hnot
      rw [discardedBlock_fails hnot]
      rfl
  | @dialect dialect hword hbackend =>
    obtain ⟨notices, hrun⟩ := dialectBlock_foreign hword hbackend
    have hts : s.cursor.Passes [] (State.cursor { s with journal := s.journal ++ notices }) :=
      .refl _
    refine ⟨?_, fun h => (nomatch h), fun _ => ?_⟩
    · rintro _ before opening after rfl hrest hbefore - hopen
      exact passesBlock_of_seeks hends hts rfl hrun hbalanced hrest hbefore hopen
    · rintro _ after rfl hrest hnone
      exact fails_of_seeks hends hts rfl hrun hrest hnone
  | shader hsupports =>
    -- the name is read before the skip
    have hrun : ∀ {name vs}, name.kind = .string → name.text ≠ "" →
        visible s.cursor.lineBreaksCount s.cursor.rest = name :: vs →
        ∃ ts, ∃ v : State (Scene σ), s.cursor.Passes ts v.cursor ∧
          v.cursor.lineBreaksCount = s.cursor.lineBreaksCount ∧
          visible s.cursor.lineBreaksCount ts = [name] ∧ shader.run s = skipBlock.run v := by
      intro name vs hkind htext hrest
      obtain ⟨-, -, ts, hts, hseen⟩ := advance_of_visible hrest
      obtain ⟨notices, hrun⟩ :=
        shader_unsupported (declaredName_run hrest hkind htext) hsupports
      exact ⟨ts, { s.advance true with journal := s.journal ++ notices }, hts, rfl, hseen, hrun⟩
    refine ⟨?_, fun h => (nomatch h), fun _ => ?_⟩
    · rintro _ before opening after ⟨name, hkind, htext, rfl⟩ hrest hbefore - hopen
      obtain ⟨ts, v, hts, hsame, hseen, hrun⟩ := hrun hkind htext hrest
      rw [← hseen] at hrest ⊢
      exact passesBlock_of_seeks hends hts hsame hrun hbalanced hrest hbefore hopen
    · rintro _ after ⟨name, hkind, htext, rfl⟩ hrest hnone
      obtain ⟨ts, v, hts, hsame, hseen, hrun⟩ := hrun hkind htext hrest
      rw [← hseen] at hrest
      exact fails_of_seeks hends hts hsame hrun hrest hnone

end Load

/-- A shader without its `{` that is skipped takes the declaration after it along. -/
theorem skip_run_shader_without_brace :
    let name (text : String) : Token := ⟨.name, text, .start⟩
    let string (text : String) : Token := ⟨.string, text, .start⟩
    let symbol (s : Symbol) : Token := .bare (.symbol s) .start
    let tokens := [name "shader", string "lost", name "material", string "stone",
      symbol .leftBrace, symbol .rightBrace, .bare .endOfFile .start]
    let start :=
      (Loader.new Recorder.default.withoutShaders "/").start (fun _ => .error .notFound) tokens
    PassesBlock shader (start.advance true) [string "lost", name "material", string "stone"]
      (symbol .leftBrace) [symbol .rightBrace, .bare .endOfFile .start] := by
  intro name string symbol tokens start
  have hends : EndsOnce tokens := ⟨tokens.dropLast, .bare .endOfFile .start, rfl, rfl, by decide⟩
  have honward : start.Onward (start.advance true) := start.advance_onward true
  obtain ⟨hblock, -, -⟩ := skip_run rfl hends honward (.shader rfl)
  exact hblock [string "lost"] [name "material", string "stone"] _ _
    ⟨string "lost", rfl, by decide, rfl⟩ rfl (by decide) (nomatch ·) rfl

end Parser

/-- Where shaders are supported that script is refused at the word after the name; where they are
not it loads, and the material it declares is lost. -/
theorem readSource_shader_without_brace :
    let files : Files := fun _ => .error .notFound
    let source := "shader \"lost\" material \"stone\" \x7b \x7d\n"
    let read := (Loader.new Recorder.default "/").readSource files source
    let skipped := (Loader.new Recorder.default.withoutShaders "/").readSource files source
    read.1 = .error (.placed ⟨1, 24⟩ (.unexpectedToken "string \"stone\"")) ∧
      skipped.1 = .ok () ∧ skipped.2.resources.materials.names = [] := by
  decide +kernel

end MaterialScript
