/-
Which steps a run makes.

All parsers move by steps forward: each token taken by itself is one, and so is
each round of a loop over tokens. `Walk p s steps` lists the steps of a run of `p`
from `s`. They are all the moves it makes: each starts where the one before has
led (`Walk.chain`), so as long as tokens are left there are at most as many steps
as tokens passed. Where none is left a step does not move; but a `Prompt` parser
makes one such step at most, because the end of the file is an error wherever
something is still to be read.
-/
import MaterialScript.Proofs.Blame
import MaterialScript.Proofs.Places
import MaterialScript.Proofs.Tandem

namespace MaterialScript

/-- A step forward, from a place and with or without skipping whitespace. -/
structure Step where
  start : Cursor
  skipWhitespace : Bool

namespace Step

/-- Where the step leads. -/
def target (step : Step) : Cursor := step.start.advance step.skipWhitespace

/-- The step starts where no token is left, and does not move. -/
def late (step : Step) : Bool := step.start.rest.isEmpty

theorem late_eq_false {c : Cursor} (h : c.rest ≠ []) (b : Bool) : late ⟨c, b⟩ = false := by
  simpa [late] using h

theorem start_leads (step : Step) : step.start.Leads step.target := step.start.advance_leads _

/-- A step that is not late passes a token. -/
theorem length_rest_target (step : Step) :
    step.target.rest.length + 1 ≤ step.start.rest.length + (if step.late then 1 else 0) := by
  by_cases hlate : step.late
  · rw [if_pos hlate]
    exact Nat.add_le_add_right step.start_leads.length_rest_le 1
  · rw [if_neg hlate]
    exact step.start.length_rest_advance_lt _ (by simpa [late] using hlate)

end Step

/-- Where the token read last is not the end of the file, tokens are left. -/
theorem Cursor.rest_ne_nil_of_current {c : Cursor} (h : Ends c.tokens)
    (hcurrent : c.current.isEndOfFile = false) : c.rest ≠ [] := by
  intro hrest
  rw [current_of_rest_nil h hrest] at hcurrent
  cases hcurrent

namespace Parser

variable {ρ α β : Type}

/-! ## Walks -/

/-- Running `p` from `s` makes these steps: one for each token taken by itself and one at the start
of each round of a loop. What does not move makes none. -/
inductive Walk : ∀ {α : Type}, Parser ρ α → State ρ → List Step → Prop
  | stays {α : Type} {p : Parser ρ α} {s : State ρ} : Stays p → Walk p s []
  | take {b : Bool} {s : State ρ} : Walk (take b) s [⟨s.cursor, b⟩]
  | bindOk {α β : Type} {p : Parser ρ α} {f : α → Parser ρ β} {s t : State ρ} {a : α}
      {steps later : List Step} :
      Walk p s steps → p.run s = (.ok a, t) → Walk (f a) t later →
      Walk (p >>= f) s (steps ++ later)
  | bindError {α β : Type} {p : Parser ρ α} {f : α → Parser ρ β} {s t : State ρ} {e : ScriptError}
      {steps : List Step} :
      Walk p s steps → p.run s = (.error e, t) → Walk (p >>= f) s steps
  | withLineBreaks {α : Type} {p : Parser ρ α} {s : State ρ} {steps : List Step} :
      Walk p (s.setLineBreaks true) steps → Walk (withLineBreaks p) s steps
  | atEnd {α β : Type} {body : α → Token → Parser ρ (Progress α β)}
      {finish : α → Token → Parser ρ β} {a : α} {s : State ρ} {steps : List Step} : s.AtEnd →
      Walk (finish a (s.advance true).cursor.current) (s.advance true) steps →
      Walk (overTokens body finish a) s (⟨s.cursor, true⟩ :: steps)
  | more {α β : Type} {body : α → Token → Parser ρ (Progress α β)}
      {finish : α → Token → Parser ρ β} {a a' : α} {s t : State ρ} {steps later : List Step} :
      ¬ s.AtEnd →
      Walk (body a (s.advance true).cursor.current) (s.advance true) steps →
      (body a (s.advance true).cursor.current).run (s.advance true) = (.ok (.more a'), t) →
      Walk (overTokens body finish a') t later →
      Walk (overTokens body finish a) s (⟨s.cursor, true⟩ :: (steps ++ later))
  | last {α β : Type} {body : α → Token → Parser ρ (Progress α β)}
      {finish : α → Token → Parser ρ β} {a : α} {s t : State ρ}
      {answer : Except ScriptError (Progress α β)} {steps : List Step} : ¬ s.AtEnd →
      Walk (body a (s.advance true).cursor.current) (s.advance true) steps →
      (body a (s.advance true).cursor.current).run (s.advance true) = (answer, t) →
      (∀ a', answer ≠ .ok (.more a')) →
      Walk (overTokens body finish a) s (⟨s.cursor, true⟩ :: steps)

/-- Steps that lead from one place to another: each starts where the one before has led. The setting
of line breaks may change between them. -/
inductive Chain : Cursor → List Step → Cursor → Prop
  | nil {c d : Cursor} : c.Passes [] d → Chain c [] d
  | cons {c d : Cursor} {step : Step} {steps : List Step} :
      c.Passes [] step.start → Chain step.target steps d → Chain c (step :: steps) d

namespace Chain

variable {c c' d d' : Cursor} {steps later : List Step}

theorem leads (h : Chain c steps d) : c.Leads d := by
  induction h with
  | nil h => exact ⟨[], h⟩
  | cons hstart _ ih => exact (Cursor.Leads.trans ⟨[], hstart⟩ (Step.start_leads _)).trans ih

theorem of_same (h : Chain c steps d) (hc : c'.Passes [] c) : Chain c' steps d := by
  cases h with
  | nil h => exact .nil (hc.trans h)
  | cons hstart hsteps => exact .cons (hc.trans hstart) hsteps

theorem append (h : Chain c steps d) (hlater : Chain d later d') : Chain c (steps ++ later) d' := by
  induction h with
  | nil h => exact hlater.of_same h
  | cons hstart _ ih => exact .cons hstart (ih hlater)

/-- As long as tokens are left, a chain has no more steps than tokens are passed. -/
theorem length_le (h : Chain c steps d) :
    steps.length + d.rest.length ≤ c.rest.length + steps.countP Step.late := by
  induction h with
  | nil h => simp [h.rest]
  | @cons c d step steps hstart hsteps ih =>
    have hmoved := step.length_rest_target
    have hbefore : c.rest.length = step.start.rest.length := by simp [hstart.rest]
    rw [List.length_cons, List.countP_cons]
    omega

/-- A chain that ends before the end of the sequence has no late steps. -/
theorem late_eq_zero (h : Chain c steps d) (hrest : d.rest ≠ []) :
    steps.countP Step.late = 0 := by
  induction h with
  | nil => rfl
  | @cons c d step steps hstart hsteps ih =>
    have hstart : step.start.rest ≠ [] := by
      intro hnone
      have hleft := (step.start_leads.trans hsteps.leads).length_rest_le
      rw [hnone] at hleft
      exact hrest (List.eq_nil_of_length_eq_zero (Nat.le_zero.1 hleft))
    rw [List.countP_cons, ih hrest, Step.late_eq_false hstart]
    rfl

end Chain

/-- **The steps of a run lead from where it starts to where it ends.** -/
theorem Walk.chain {p : Parser ρ α} {s : State ρ} {steps : List Step} (h : Walk p s steps) :
    Chain s.cursor steps (p.run s).2.cursor := by
  induction h with
  | @stays _ p s hstays =>
    rw [hstays s]
    exact .nil (.refl _)
  | take => exact .cons (.refl _) (.nil (.refl _))
  | bindOk _ hrun _ ihp ihf =>
    rw [hrun] at ihp
    rw [run_bind_of_ok hrun]
    exact ihp.append ihf
  | bindError _ hrun ih =>
    rw [hrun] at ih
    rw [run_bind_of_error hrun]
    exact ih
  | @withLineBreaks _ p s steps _ ih =>
    rcases hrun : p.run (s.setLineBreaks true) with ⟨answer, t⟩
    rw [hrun] at ih
    rw [run_withLineBreaks hrun]
    have hstart : s.cursor.Passes [] (s.setLineBreaks true).cursor := .of_eq rfl rfl
    have hend : t.cursor.Passes [] (t.setLineBreaks s.cursor.lineBreaksCount).cursor :=
      .of_eq rfl rfl
    simpa using (ih.of_same hstart).append (.nil hend)
  | @atEnd _ _ body finish a s steps hend _ ih =>
    change Chain s.cursor _ (runOverTokens body finish a s).2.cursor
    rw [runOverTokens_atEnd hend]
    exact .cons (.refl _) ih
  | @more _ _ body finish a a' s t steps later hend _ hrun _ ihbody ihloop =>
    change Chain s.cursor _ (runOverTokens body finish a s).2.cursor
    rw [runOverTokens_more hend hrun]
    rw [hrun] at ihbody
    exact .cons (.refl _) (ihbody.append ihloop)
  | @last _ _ body finish a s t answer steps hend _ hrun hlast ih =>
    change Chain s.cursor _ (runOverTokens body finish a s).2.cursor
    rw [hrun] at ih
    rcases answer with e | a' | b
    · rw [runOverTokens_error hend hrun]
      exact .cons (.refl _) ih
    · exact absurd rfl (hlast a')
    · rw [runOverTokens_done hend hrun]
      exact .cons (.refl _) ih

/-! ## Prompt parsers -/

/-- From a place with tokens left, the parser has a walk with one late step at most. Where it
succeeds, that has none, and tokens are left again unless it `mayEnd` the sequence. -/
def Prompt (mayEnd : Prop) (p : Parser ρ α) : Prop :=
  ∀ ⦃s : State ρ⦄, Ends s.cursor.tokens → s.cursor.rest ≠ [] →
    ∃ steps, Walk p s steps ∧ steps.countP Step.late ≤ 1 ∧
      ∀ a u, p.run s = (.ok a, u) → steps.countP Step.late = 0 ∧ (u.cursor.rest = [] → mayEnd)

namespace Prompt

variable {mayEnd : Prop} {p : Parser ρ α} {f : α → Parser ρ β}

theorem mono (h : Prompt False p) : Prompt mayEnd p := by
  intro s hends hrest
  obtain ⟨steps, hwalk, hlate, hok⟩ := h hends hrest
  exact ⟨steps, hwalk, hlate, fun a u hrun =>
    (hok a u hrun).imp_right fun hu hend => (hu hend).elim⟩

/-- A walk with one late step at most will do, if what succeeds leaves tokens. -/
theorem of_walk (hwalk : ∀ ⦃s : State ρ⦄, Ends s.cursor.tokens → s.cursor.rest ≠ [] →
      ∃ steps, Walk p s steps ∧ steps.countP Step.late ≤ 1)
    (hleaves : ∀ ⦃s : State ρ⦄ ⦃a : α⦄ ⦃u : State ρ⦄, Ends s.cursor.tokens → s.cursor.rest ≠ [] →
      p.run s = (.ok a, u) → u.cursor.rest ≠ []) : Prompt mayEnd p := by
  refine mono fun s hends hrest => ?_
  obtain ⟨steps, hsteps, hlate⟩ := hwalk hends hrest
  refine ⟨steps, hsteps, hlate, fun a u hrun => ?_⟩
  have hleft := hleaves hends hrest hrun
  have hchain := hsteps.chain
  rw [hrun] at hchain
  exact ⟨hchain.late_eq_zero hleft, fun hu => hleft hu⟩

theorem stays (h : Stays p) : Prompt mayEnd p := by
  refine of_walk (fun s _ _ => ⟨[], .stays h, Nat.zero_le _⟩) fun s a u _ hrest hrun => ?_
  rwa [h.cursor_eq hrun]

theorem bind (hp : Prompt False p) (hf : ∀ a, Prompt mayEnd (f a)) : Prompt mayEnd (p >>= f) := by
  intro s hends hrest
  obtain ⟨steps, hsteps, hlate, hok⟩ := hp hends hrest
  rcases hrun : p.run s with ⟨e | a, t⟩
  · refine ⟨steps, .bindError hsteps hrun, hlate, fun b u hb => ?_⟩
    rw [run_bind_of_error hrun] at hb
    cases hb
  · obtain ⟨hnone, hleft⟩ := hok a t hrun
    obtain ⟨later, hlater, hlate', hok'⟩ :=
      hf a ((onward_of_run hrun).ends hends) fun hend => hleft hend
    refine ⟨steps ++ later, .bindOk hsteps hrun hlater, ?_, fun b u hb => ?_⟩
    · rw [List.countP_append, hnone, Nat.zero_add]
      exact hlate'
    · rw [run_bind_of_ok hrun] at hb
      rw [List.countP_append, hnone, Nat.zero_add]
      exact hok' b u hb

theorem bind_stays (hp : Prompt mayEnd p) (hf : ∀ a, Stays (f a)) : Prompt mayEnd (p >>= f) := by
  intro s hends hrest
  obtain ⟨steps, hsteps, hlate, hok⟩ := hp hends hrest
  rcases hrun : p.run s with ⟨e | a, t⟩
  · refine ⟨steps, .bindError hsteps hrun, hlate, fun b u hb => ?_⟩
    rw [run_bind_of_error hrun] at hb
    cases hb
  · obtain ⟨hnone, hend⟩ := hok a t hrun
    refine ⟨steps ++ [], .bindOk hsteps hrun (.stays (hf a)), by simpa using hlate,
      fun b u hb => ⟨by simpa using hnone, ?_⟩⟩
    rw [run_bind_of_ok hrun] at hb
    rw [(hf a).cursor_eq hb]
    exact hend

theorem withLineBreaks (h : Prompt mayEnd p) : Prompt mayEnd (withLineBreaks p) := by
  intro s hends hrest
  obtain ⟨steps, hsteps, hlate, hok⟩ := h (s := s.setLineBreaks true) hends hrest
  refine ⟨steps, .withLineBreaks hsteps, hlate, fun a u hrun => ?_⟩
  rcases hinner : p.run (s.setLineBreaks true) with ⟨answer, t⟩
  rw [run_withLineBreaks hinner] at hrun
  cases hrun
  exact hok a t hinner

theorem takeOne (b : Bool) : Prompt True (take b : Parser ρ Token) := by
  intro s _ hrest
  have hearly := Step.late_eq_false hrest b
  exact ⟨_, .take, by simp [hearly], fun _ _ _ => ⟨by simp [hearly], fun _ => trivial⟩⟩

/-- A token is taken, and the end of the file is refused. -/
theorem take {f : Token → Parser ρ α} (b : Bool)
    (hf : ∀ t, t.isEndOfFile = false → Prompt mayEnd (f t))
    (hend : ∀ t, t.isEndOfFile → Stays (f t) ∧ Refuses (f t)) :
    Prompt mayEnd (take b >>= f) := by
  intro s hends hrest
  have hends' : Ends (s.advance b).cursor.tokens := (s.advance_onward b).ends hends
  have hearly := Step.late_eq_false hrest b
  have hwalk : ∀ {later : List Step}, Walk (f (s.advance b).cursor.current) (s.advance b) later →
      Walk (Parser.take b >>= f) s (⟨s.cursor, b⟩ :: later) :=
    fun hlater => .bindOk .take rfl hlater
  cases heof : (s.advance b).cursor.current.isEndOfFile with
  | true =>
    obtain ⟨hstays, hrefuses⟩ := hend _ heof
    exact ⟨_, hwalk (.stays hstays), by simp [hearly],
      fun a u hrun => absurd hrun (@hrefuses _ _ _)⟩
  | false =>
    obtain ⟨later, hlater, hlate, hok⟩ :=
      hf _ heof hends' (Cursor.rest_ne_nil_of_current hends' heof)
    refine ⟨_, hwalk hlater, ?_, fun a u hrun => ?_⟩
    · simpa [List.countP_cons, hearly] using hlate
    · simpa [List.countP_cons, hearly] using hok a u hrun

section Loops

variable {body : α → Token → Parser ρ (Progress α β)} {finish : α → Token → Parser ρ β}
  (hbody : ∀ a t, t.isEndOfFile = false → Prompt mayEnd (body a t))
include hbody

/-- A loop makes a late step only after a round that has ended the sequence, and leaves then. -/
theorem exists_walk_overTokens (hfinish : ∀ a t, t.isEndOfFile → Stays (finish a t)) (a : α)
    {s : State ρ} (hends : Ends s.cursor.tokens) :
    ∃ steps, Walk (overTokens body finish a) s steps ∧ steps.countP Step.late ≤ 1 ∧
      (¬ mayEnd → s.cursor.rest ≠ [] → ∀ b u, (overTokens body finish a).run s = (.ok b, u) →
        steps.countP Step.late = 0) := by
  -- a round with a token to read is not late, and has tokens left
  have round : ∀ {s : State ρ}, Ends s.cursor.tokens → ¬ s.AtEnd →
      Step.late ⟨s.cursor, true⟩ = false ∧ Ends (s.advance true).cursor.tokens ∧
        (s.advance true).cursor.current.isEndOfFile = false ∧
        (s.advance true).cursor.rest ≠ [] := by
    intro s hends hend
    rw [State.AtEnd, not_or, Bool.not_eq_true] at hend
    have hends' := (s.advance_onward true).ends hends
    exact ⟨Step.late_eq_false hend.1 true, hends', hend.2,
      Cursor.rest_ne_nil_of_current hends' hend.2⟩
  induction a, s using loop_induction body with
  | atEnd a s hend =>
    obtain ⟨-, -, -, heof⟩ := Reads.step_of_atEnd hends hend
    refine ⟨_, .atEnd hend (.stays (hfinish a _ heof)), List.countP_le_length, ?_⟩
    intro _ hrest _ _ _
    simp [Step.late_eq_false hrest]
  | more a s a' t hend hrun ih =>
    obtain ⟨hearly, hends', heof, hrest⟩ := round hends hend
    obtain ⟨steps, hsteps, -, hok⟩ := hbody a _ heof hends' hrest
    obtain ⟨hnone, hleft⟩ := hok _ t hrun
    obtain ⟨later, hlater, hlate, hlast⟩ := ih ((onward_of_run hrun).ends hends')
    refine ⟨_, .more hend hsteps hrun hlater, ?_, ?_⟩
    · simpa [List.countP_cons, List.countP_append, hearly, hnone] using hlate
    · intro hmay _ b u hb
      have hb : runOverTokens body finish a s = (.ok b, u) := hb
      rw [runOverTokens_more hend hrun] at hb
      simpa [List.countP_cons, List.countP_append, hearly, hnone] using
        hlast hmay (fun hnil => hmay (hleft hnil)) b u hb
  | done a s b t hend hrun =>
    obtain ⟨hearly, hends', heof, hrest⟩ := round hends hend
    obtain ⟨steps, hsteps, hlate, hok⟩ := hbody a _ heof hends' hrest
    obtain ⟨hnone, -⟩ := hok _ t hrun
    refine ⟨_, .last hend hsteps hrun (by simp), ?_, fun _ _ _ _ _ => ?_⟩ <;>
      simp [hearly, hnone]
  | error a s e t hend hrun =>
    obtain ⟨hearly, hends', heof, hrest⟩ := round hends hend
    obtain ⟨steps, hsteps, hlate, -⟩ := hbody a _ heof hends' hrest
    refine ⟨_, .last hend hsteps hrun (by simp), ?_, fun _ _ b u hb => ?_⟩
    · simpa [List.countP_cons, hearly] using hlate
    · have hb : runOverTokens body finish a s = (.ok b, u) := hb
      rw [runOverTokens_error hend hrun] at hb
      cases hb

/-- A loop that is left early by its body only, and refuses the end of the file. -/
theorem overTokens_of_done
    (hdone : ∀ ⦃a s b u⦄, Ends s.cursor.tokens → s.cursor.current.isEndOfFile = false →
      (body a s.cursor.current).run s = (.ok (.done b), u) → u.cursor.rest ≠ [])
    (hfinish : ∀ a t, t.isEndOfFile → Stays (finish a t) ∧ Refuses (finish a t)) (a : α)
    {mayEnd' : Prop} : Prompt mayEnd' (overTokens body finish a) := by
  refine of_walk (fun s hends _ => ?_) fun s b u hends hrest hrun => ?_
  · obtain ⟨steps, hsteps, hlate, -⟩ :=
      exists_walk_overTokens hbody (fun a t heof => (hfinish a t heof).1) a hends
    exact ⟨steps, hsteps, hlate⟩
  · clear hrest
    change runOverTokens body finish a s = _ at hrun
    induction a, s using loop_induction body with
    | atEnd a s hend =>
      obtain ⟨-, -, -, heof⟩ := Reads.step_of_atEnd hends hend
      rw [runOverTokens_atEnd hend] at hrun
      exact absurd hrun (@(hfinish a _ heof).2 _ _ _)
    | more a s a' t hend hround ih =>
      rw [runOverTokens_more hend hround] at hrun
      exact ih ((onward_of_run hround).ends ((s.advance_onward true).ends hends)) hrun
    | done a s b t hend hround =>
      rw [runOverTokens_done hend hround] at hrun
      cases hrun
      rw [State.AtEnd, not_or, Bool.not_eq_true] at hend
      exact hdone ((s.advance_onward true).ends hends) hend.2 hround
    | error a s e t hend hround =>
      rw [runOverTokens_error hend hround] at hrun
      cases hrun

end Loops

section Loops

variable {body : α → Token → Parser ρ (Progress α β)} {finish : α → Token → Parser ρ β}
  (hbody : ∀ a t, t.isEndOfFile = false → Prompt False (body a t))
include hbody

theorem overTokens (hfinish : ∀ a t, t.isEndOfFile → Stays (finish a t) ∧ Refuses (finish a t))
    (a : α) : Prompt mayEnd (overTokens body finish a) := by
  refine overTokens_of_done hbody (fun a s b u hends hcurrent hrun => ?_) hfinish a
  obtain ⟨_, -, -, hok⟩ := hbody a _ hcurrent hends (Cursor.rest_ne_nil_of_current hends hcurrent)
  exact (hok _ u hrun).2

/-- A loop that may be left at the end of the file. -/
theorem overTokens_mayEnd (hfinish : ∀ a t, t.isEndOfFile → Stays (finish a t)) (a : α) :
    Prompt True (Parser.overTokens body finish a) := by
  intro s hends hrest
  obtain ⟨steps, hsteps, hlate, hok⟩ := exists_walk_overTokens hbody hfinish a hends
  exact ⟨steps, hsteps, hlate, fun b u hrun => ⟨hok id hrest b u hrun, fun _ => trivial⟩⟩

end Loops

/-! ## Tokens -/

theorem pure (a : α) : Prompt mayEnd (Pure.pure a : Parser ρ α) := stays fun _ => rfl

theorem failAt (t : Token) (fault : Fault) : Prompt mayEnd (failAt t fault : Parser ρ α) :=
  stays fun _ => rfl

theorem unexpected (t : Token) : Prompt mayEnd (unexpected t : Parser ρ α) := stays fun _ => rfl

theorem unexpectedName (t : Token) : Prompt mayEnd (unexpectedName t : Parser ρ α) :=
  stays fun _ => rfl

theorem consult (f : Variables → α) : Prompt mayEnd (consult f : Parser ρ α) := stays fun _ => rfl

theorem note (notices : Journal) : Prompt mayEnd (note notices : Parser ρ Unit) :=
  stays fun _ => rfl

theorem build (f : ρ → α × ρ) : Prompt mayEnd (build f) := stays fun _ => rfl

theorem unlessEnd (t : Token) : Prompt mayEnd (unlessEnd t : Parser ρ Token) := by
  unfold Parser.unlessEnd
  split
  · exact failAt t _
  · exact pure t

theorem unlessEnd_refuses {t : Token} (h : t.isEndOfFile) :
    Stays (Parser.unlessEnd t : Parser ρ Token) ∧
      Refuses (Parser.unlessEnd t : Parser ρ Token) := by
  rw [Parser.unlessEnd, if_pos h]
  exact ⟨fun _ => rfl, .failAt t _⟩

theorem bind_unlessEnd_refuses {t : Token} (h : t.isEndOfFile) (f : Token → Parser ρ β) :
    Stays (Parser.unlessEnd t >>= f) ∧ Refuses (Parser.unlessEnd t >>= f) := by
  rw [Parser.unlessEnd, if_pos h]
  exact ⟨fun _ => rfl, (Refuses.failAt t _).bind f⟩

theorem next : Prompt mayEnd (next : Parser ρ Token) :=
  take true (fun t _ => unlessEnd t) fun _ => unlessEnd_refuses

theorem expect (s : Symbol) : Prompt mayEnd (expect s : Parser ρ Unit) := by
  refine bind next fun t => ?_
  split
  · exact pure ()
  · exact unexpected t

theorem accept (symbol : Symbol) : Prompt mayEnd (accept symbol : Parser ρ Bool) := by
  refine of_walk (fun s _ hrest => ?_) fun s a u hends hrest hrun => ?_
  · by_cases hseen : (s.cursor.peek true).isSymbol symbol
    · refine ⟨[] ++ ([⟨s.cursor, true⟩] ++ []), .bindOk (.stays fun _ => rfl) rfl ?_,
        by simp [Step.late_eq_false hrest]⟩
      rw [if_pos hseen]
      exact .bindOk .take rfl (.stays fun _ => rfl)
    · refine ⟨[] ++ [], .bindOk (.stays fun _ => rfl) rfl ?_, by simp⟩
      rw [if_neg hseen]
      exact .stays fun _ => rfl
  · rw [accept_run] at hrun
    split at hrun
    · rename_i hseen
      cases hrun
      have hkind : (s.cursor.peek true).kind = .symbol symbol := by
        simpa [Token.isSymbol] using hseen
      refine Cursor.rest_ne_nil_of_current ((s.advance_onward true).ends hends) ?_
      change (s.cursor.peek true).isEndOfFile = false
      simp [Token.isEndOfFile, hkind]
    · cases hrun
      exact hrest

theorem variableName : Prompt mayEnd (variableName : Parser ρ String) := by
  refine take false (fun t _ => bind (unlessEnd t) fun t => ?_) fun t heof =>
    bind_unlessEnd_refuses heof _
  split
  · exact pure _
  · exact failAt t _

theorem declaredName : Prompt mayEnd (declaredName : Parser ρ Token) := by
  refine bind next fun t => ?_
  split
  · exact pure t
  · exact failAt t _

theorem separated (separator : Symbol) {term : Token → Parser ρ α}
    (hterm : ∀ t, Prompt False (term t)) : Prompt mayEnd (separated separator term) :=
  overTokens (fun _ t _ => bind (hterm t) fun _ => bind (accept separator) fun _ => pure _)
    (fun _ t _ => ⟨fun _ => rfl, .failAt t _⟩) _

theorem skipBlock : Prompt mayEnd (skipBlock : Parser ρ Unit) := by
  refine bind ?_ fun _ => ?_
  · exact overTokens (fun _ _ _ => pure _) (fun _ t _ => ⟨fun _ => rfl, .failAt t _⟩) ()
  · exact overTokens (fun _ _ _ => pure _) (fun _ t _ => ⟨fun _ => rfl, .failAt t _⟩) 0

/-! ## Values -/

theorem termOnLine : Prompt mayEnd (termOnLine : Parser ρ Token) := by
  refine bind next fun t => ?_
  split
  · exact unexpected t
  · exact pure t

theorem operand (unbound : Value) (t : Token) :
    Prompt mayEnd (operand unbound t : Parser ρ Value) := by
  unfold Parser.operand
  split
  · exact bind (stays (numeral_stays t)) fun _ => pure _
  · exact bind (stays (numeral_stays t)) fun _ => pure _
  · exact pure _
  · refine bind variableName fun name => bind (consult _) fun value => ?_
    split
    · exact pure _
    · exact bind (note _) fun _ => pure _
  · exact failAt t _

theorem endOfNumber : Prompt True (endOfNumber : Parser ρ Unit) := by
  refine bind_stays (takeOne true) fun t => ?_
  split
  · exact fun _ => rfl
  split <;> exact fun _ => rfl

theorem joined : Prompt mayEnd (joined : Parser ρ String) := by
  refine bind termOnLine fun t => ?_
  split
  · exact failAt t _
  · refine bind (operand _ t) fun value => ?_
    split
    · exact pure _
    · exact failAt t _

theorem restOfText (first : String) : Prompt True (restOfText first : Parser ρ String) := by
  refine overTokens_mayEnd (fun text t _ => ?_) (fun _ _ _ _ => rfl) first
  split
  · exact pure _
  split
  · exact bind joined fun _ => pure _
  · exact failAt t _

theorem initializer : Prompt True (initializer : Parser ρ Value) := by
  refine take true (fun t _ => ?_) fun t heof => ?_
  · split
    · exact failAt t _
    split
    · refine bind termOnLine fun t => bind (operand _ t) fun value => ?_
      split
      · exact bind_stays endOfNumber fun _ _ => rfl
      · exact failAt t _
    · refine bind (operand _ t) fun value => ?_
      split
      · exact bind_stays endOfNumber fun _ _ => rfl
      · exact bind_stays (restOfText _) fun _ _ => rfl
  · rw [if_pos (Token.endsLine_of_isEndOfFile heof)]
    exact ⟨fun _ => rfl, .failAt t _⟩

theorem variableDefinition : Prompt True (variableDefinition : Parser ρ Unit) := by
  refine withLineBreaks (bind variableName fun name => bind (consult _) fun known =>
    bind (stays (.noteIf _ _)) fun _ => bind next fun t => ?_)
  split
  · exact bind_stays initializer fun _ _ => rfl
  · exact failAt t _

theorem optionalEqual : Prompt mayEnd (optionalEqual : Parser ρ Unit) :=
  bind (accept _) fun _ => pure ()

theorem magnitude (t : Token) : Prompt mayEnd (magnitude t : Parser ρ Float) := by
  unfold Parser.magnitude
  split
  · exact stays (numeral_stays t)
  · exact stays (numeral_stays t)
  · exact bind variableName fun name => bind (consult _) fun _ => bind (note _) fun _ => pure _
  · exact unexpectedName t
  · exact unexpected t

theorem signedNumber (t : Token) : Prompt mayEnd (signedNumber t : Parser ρ Float) := by
  unfold Parser.signedNumber
  split
  · exact bind next fun t => bind (magnitude t) fun _ => pure _
  · exact magnitude t

theorem number : Prompt mayEnd (number : Parser ρ Float) :=
  bind optionalEqual fun _ => bind next signedNumber

theorem word : Prompt mayEnd (word : Parser ρ String) := by
  refine bind optionalEqual fun _ => bind next fun t => ?_
  split
  · exact pure _
  · exact unexpected t

theorem flag : Prompt mayEnd (flag : Parser ρ Bool) := by
  refine bind optionalEqual fun _ => bind next fun t => ?_
  split
  · exact pure _
  split
  · exact pure _
  split
  · exact unexpectedName t
  · exact unexpected t

theorem keyword (vocabulary : Vocabulary α) :
    Prompt mayEnd (keyword vocabulary : Parser ρ α) :=
  bind word fun _ => bind (note _) fun _ => pure _

theorem textTerm (t : Token) : Prompt mayEnd (textTerm t : Parser ρ String) := by
  unfold Parser.textTerm
  split
  · exact pure _
  · exact bind variableName fun name => bind (consult _) fun _ => bind (note _) fun _ => pure _
  · exact failAt t _

theorem text : Prompt mayEnd (text : Parser ρ String) :=
  withLineBreaks (bind optionalEqual fun _ => bind (separated _ textTerm) fun _ => pure _)

theorem color : Prompt mayEnd (color : Parser ρ Color) :=
  withLineBreaks (bind optionalEqual fun _ => bind (separated _ signedNumber) fun _ => pure _)

theorem nameOrText : Prompt mayEnd (nameOrText : Parser ρ String) := by
  refine bind optionalEqual fun _ => bind (stays fun _ => rfl) fun t => ?_
  split
  · exact text
  · exact text
  · exact word

theorem read (a : Attribute β) : Prompt mayEnd (a.read : Parser ρ (β → β)) := by
  cases a with
  | color set => exact bind color fun _ => pure _
  | number set => exact bind number fun _ => pure _
  | flag set => exact bind flag fun _ => pure _
  | text set => exact bind text fun _ => pure _
  | keyword changes => exact keyword changes

theorem readLine (attributes : Attributes β) (t : Token) :
    Prompt mayEnd (Attribute.readLine attributes t : Parser ρ (β → β)) := by
  unfold Attribute.readLine
  split
  · exact read _
  · exact unexpectedName t

/-! ## Lines -/

theorem discardedBlock : Prompt mayEnd (discardedBlock : Parser ρ Unit) := by
  refine bind (stays fun _ => rfl) fun t => ?_
  split
  · exact skipBlock
  · exact unexpected t

section Lines

variable {named : β → Token → Parser ρ β} (hnamed : ∀ b t, Prompt False (named b t))
include hnamed

theorem line (b : β) (t : Token) : Prompt True (line named b t) := by
  unfold Parser.line
  split
  · exact bind_stays variableDefinition fun _ _ => rfl
  · split
    · exact bind discardedBlock fun _ => pure b
    · exact (hnamed b t).mono
  · exact unexpected t

theorem lineOrClose (closing : TokenKind) (b : β) (t : Token) :
    Prompt True (lineOrClose closing named b t) := by
  unfold Parser.lineOrClose
  split
  · exact pure _
  · exact bind_stays (line hnamed b t) fun _ _ => rfl

theorem blockBody (b : β) : Prompt mayEnd (blockBody named b) := by
  refine overTokens_of_done (fun b t _ => lineOrClose hnamed _ b t)
    (fun b s b' u hends hcurrent hrun => ?_) (fun b t heof => ?_) b
  · unfold Parser.lineOrClose at hrun
    split at hrun
    · cases hrun
      exact Cursor.rest_ne_nil_of_current hends hcurrent
    · obtain ⟨_, _, -, hrun⟩ := run_bind_eq_ok hrun
      cases hrun
  · have hkind : t.kind = .endOfFile := by simpa [Token.isEndOfFile] using heof
    rw [closeAtEnd, if_neg (by simp [hkind])]
    exact ⟨fun _ => rfl, .unexpected t⟩

theorem block (b : β) : Prompt mayEnd (block named b) :=
  bind (expect _) fun _ => blockBody hnamed b

end Lines

end Prompt

end Parser

end MaterialScript
