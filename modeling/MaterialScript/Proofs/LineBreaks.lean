/-
Where line breaks count.

Line breaks are tokens while a line value is read: a variable definition, a string
or a color. `Course within p s moments` follows a run of `p` operation by
operation and tells for each of them which line value is being read then. A line
value is entered with line breaks counting, and every parser leaves their setting
as it found it. So all over a load line breaks count exactly while a line value is
read, and never in a turn of the loop that reads a script or a block
(`Loader.lineBreaks_count`).
-/
import MaterialScript.Proofs.Points

namespace MaterialScript

namespace Parser

variable {ρ α β : Type}

/-! ## The course of a run -/

/-- What parsers are made of, besides sequences, loops and line values. -/
inductive Operation : ∀ {α : Type}, Parser ρ α → Prop
  | pure {α : Type} (a : α) : Operation (Pure.pure a)
  | fail {α : Type} (e : ScriptError) : Operation (fail e : Parser ρ α)
  | note (notices : Journal) : Operation (note notices)
  | consult {α : Type} (f : Variables → α) : Operation (consult f)
  | setVariable (name : String) (value : Value) : Operation (setVariable name value)
  | build {α : Type} (f : ρ → α × ρ) : Operation (build f)
  | take (skipWhitespace : Bool) : Operation (take skipWhitespace)
  | peek : Operation peek
  | current : Operation current

/-- A state that a run comes by, and the line value that is being read then, if any. -/
structure Moment (ρ : Type) where
  within : Option LineValue
  state : State ρ

/-- `q` does what `p` does with line breaks counting, and leaves their setting as it found it. -/
def RunsCounting (p q : Parser ρ α) : Prop :=
  ∀ s : State ρ, q.run s = ((p.run (s.setLineBreaks true)).1,
    (p.run (s.setLineBreaks true)).2.setLineBreaks s.cursor.lineBreaksCount)

theorem runsCounting_withLineBreaks (p : Parser ρ α) : RunsCounting p (withLineBreaks p) :=
  fun _ => rfl

/-- Running `p` from `s`, while the line value `within` is being read, if any, comes by these
moments: one for each operation and one for each round of a loop, before it steps on. What reads a
line value is followed with line breaks counting. -/
inductive Course :
    Option LineValue → ∀ {α : Type}, Parser ρ α → State ρ → List (Moment ρ) → Prop
  | operation {within : Option LineValue} {α : Type} {p : Parser ρ α} {s : State ρ} :
      Operation p → Course within p s [⟨within, s⟩]
  | bindOk {within : Option LineValue} {α β : Type} {p : Parser ρ α} {f : α → Parser ρ β}
      {s t : State ρ} {a : α} {moments later : List (Moment ρ)} :
      Course within p s moments → p.run s = (.ok a, t) → Course within (f a) t later →
      Course within (p >>= f) s (moments ++ later)
  | bindError {within : Option LineValue} {α β : Type} {p : Parser ρ α} {f : α → Parser ρ β}
      {s t : State ρ} {e : ScriptError} {moments : List (Moment ρ)} :
      Course within p s moments → p.run s = (.error e, t) → Course within (p >>= f) s moments
  | lineValue {within : Option LineValue} {α : Type} {p q : Parser ρ α} {v : LineValue}
      {s : State ρ} {moments : List (Moment ρ)} : ReadsLineValue v q → RunsCounting p q →
      Course (some v) p (s.setLineBreaks true) moments → Course within q s moments
  | atEnd {within : Option LineValue} {α β : Type} {body : α → Token → Parser ρ (Progress α β)}
      {finish : α → Token → Parser ρ β} {a : α} {s : State ρ} {moments : List (Moment ρ)} :
      s.AtEnd →
      Course within (finish a (s.advance true).cursor.current) (s.advance true) moments →
      Course within (overTokens body finish a) s (⟨within, s⟩ :: moments)
  | more {within : Option LineValue} {α β : Type} {body : α → Token → Parser ρ (Progress α β)}
      {finish : α → Token → Parser ρ β} {a a' : α} {s t : State ρ}
      {moments later : List (Moment ρ)} : ¬ s.AtEnd →
      Course within (body a (s.advance true).cursor.current) (s.advance true) moments →
      (body a (s.advance true).cursor.current).run (s.advance true) = (.ok (.more a'), t) →
      Course within (overTokens body finish a') t later →
      Course within (overTokens body finish a) s (⟨within, s⟩ :: (moments ++ later))
  | last {within : Option LineValue} {α β : Type} {body : α → Token → Parser ρ (Progress α β)}
      {finish : α → Token → Parser ρ β} {a : α} {s t : State ρ}
      {answer : Except ScriptError (Progress α β)} {moments : List (Moment ρ)} : ¬ s.AtEnd →
      Course within (body a (s.advance true).cursor.current) (s.advance true) moments →
      (body a (s.advance true).cursor.current).run (s.advance true) = (answer, t) →
      (∀ a', answer ≠ .ok (.more a')) →
      Course within (overTokens body finish a) s (⟨within, s⟩ :: moments)

/-- Every run of a parser has a course. -/
theorem Composed.exists_course {may : ∀ α : Type, (ρ → α × ρ) → Prop} {looks : Prop}
    {p : Parser ρ α} (h : Composed may looks p) (within : Option LineValue) (s : State ρ) :
    ∃ moments, Course within p s moments := by
  induction h generalizing within s with
  | pure a => exact ⟨_, .operation (.pure a)⟩
  | fail e => exact ⟨_, .operation (.fail e)⟩
  | note notices => exact ⟨_, .operation (.note notices)⟩
  | consult _ => exact ⟨_, .operation (.consult _)⟩
  | setVariable name value => exact ⟨_, .operation (.setVariable name value)⟩
  | build _ => exact ⟨_, .operation (.build _)⟩
  | take b => exact ⟨_, .operation (.take b)⟩
  | peek => exact ⟨_, .operation .peek⟩
  | current => exact ⟨_, .operation .current⟩
  | @bind _ _ p f _ _ ihp ihf =>
    obtain ⟨moments, hp⟩ := ihp within s
    rcases hrun : p.run s with ⟨e | a, t⟩
    · exact ⟨moments, .bindError hp hrun⟩
    · obtain ⟨later, hf⟩ := ihf a within t
      exact ⟨moments ++ later, .bindOk hp hrun hf⟩
  | @lineValue _ p v hv _ ih =>
    obtain ⟨moments, hp⟩ := ih (some v) (s.setLineBreaks true)
    exact ⟨moments, .lineValue hv (runsCounting_withLineBreaks p) hp⟩
  | @overTokens _ _ body finish a _ _ ihbody ihfinish =>
    induction a, s using loop_induction body with
    | atEnd a s hend =>
      obtain ⟨moments, hfinish⟩ := ihfinish a _ within (s.advance true)
      exact ⟨_, .atEnd hend hfinish⟩
    | more a s a' t hend hrun ih =>
      obtain ⟨moments, hbody⟩ := ihbody a _ within (s.advance true)
      obtain ⟨later, hloop⟩ := ih
      exact ⟨_, .more hend hbody hrun hloop⟩
    | done a s b t hend hrun =>
      obtain ⟨moments, hbody⟩ := ihbody a _ within (s.advance true)
      exact ⟨_, .last hend hbody hrun nofun⟩
    | error a s e t hend hrun =>
      obtain ⟨moments, hbody⟩ := ihbody a _ within (s.advance true)
      exact ⟨_, .last hend hbody hrun nofun⟩

/-- What stays as a run goes on, and holds where a line value is entered, holds at every moment. -/
theorem Course.invariant {I : Option LineValue → State ρ → Prop}
    (honward : ∀ {within : Option LineValue} {s t : State ρ}, s.Onward t → I within s → I within t)
    (henter : ∀ {within : Option LineValue} {v : LineValue} {s : State ρ},
      I within s → I (some v) (s.setLineBreaks true))
    {within : Option LineValue} {p : Parser ρ α} {s : State ρ} {moments : List (Moment ρ)}
    (h : Course within p s moments) (hs : I within s) : ∀ x ∈ moments, I x.within x.state := by
  induction h with
  | operation => simpa using hs
  | bindOk _ hrun _ ihp ihf =>
    exact List.forall_mem_append.2 ⟨ihp hs, ihf (honward (onward_of_run hrun) hs)⟩
  | bindError _ _ ih => exact ih hs
  | lineValue _ _ _ ih => exact ih (henter hs)
  | atEnd _ _ ih =>
    exact List.forall_mem_cons.2 ⟨hs, ih (honward (State.advance_onward _ true) hs)⟩
  | more _ _ hrun _ ihbody ihloop =>
    have hround := honward (State.advance_onward _ true) hs
    exact List.forall_mem_cons.2 ⟨hs, List.forall_mem_append.2
      ⟨ihbody hround, ihloop (honward (onward_of_run hrun) hround)⟩⟩
  | last _ _ _ _ ih =>
    exact List.forall_mem_cons.2 ⟨hs, ih (honward (State.advance_onward _ true) hs)⟩

/-- If line breaks count at the start exactly if a line value is being read, they do so all along:
what succeeds or fails on the way leaves their setting as it found it. -/
theorem Course.lineBreaks {within : Option LineValue} {p : Parser ρ α} {s : State ρ}
    {moments : List (Moment ρ)} (h : Course within p s moments)
    (hs : s.cursor.lineBreaksCount = within.isSome) :
    ∀ x ∈ moments, x.state.cursor.lineBreaksCount = x.within.isSome :=
  h.invariant (I := fun within s => s.cursor.lineBreaksCount = within.isSome)
    (fun hst hs => hst.lineBreaks.trans hs) (fun _ => rfl) hs

/-- `q` reads the line value `v` with line breaks counting from its start to its end, at every
moment. -/
def CountsThroughout (v : LineValue) (q : Parser ρ α) : Prop :=
  ∃ p, RunsCounting p q ∧ ∀ s : State ρ,
    (∃ moments, Course (some v) p (s.setLineBreaks true) moments) ∧
    ∀ moments, Course (some v) p (s.setLineBreaks true) moments →
      ∀ x ∈ moments, x.state.cursor.lineBreaksCount = true

theorem ReadsLineValue.countsThroughout {v : LineValue} {q : Parser ρ α}
    (h : ReadsLineValue v q) : CountsThroughout v q := by
  obtain ⟨p, rfl, hp⟩ : ∃ p, q = withLineBreaks p ∧ Composed LooksOnly True p := h.exists_body
  refine ⟨p, runsCounting_withLineBreaks p, fun s =>
    ⟨hp.exists_course (some v) _, fun moments hcourse => ?_⟩⟩
  exact hcourse.invariant (I := fun _ s => s.cursor.lineBreaksCount = true)
    (fun hst hs => hst.lineBreaks.trans hs) (fun _ => rfl) rfl

/-! ## The turns of a loop over lines -/

section Turns

variable {closing : TokenKind} {named : β → Token → Parser ρ β} {b b' : β} {s t : State ρ}

/-- `lines closing named`, started in one state, comes to a turn of its loop in another. -/
inductive Turn (closing : TokenKind) (named : β → Token → Parser ρ β) :
    β → State ρ → β → State ρ → Prop
  | first {b : β} {s : State ρ} : Turn closing named b s b s
  | next {b b' b'' : β} {s t u : State ρ} : ¬ s.AtEnd →
      (s.advance true).cursor.current.kind ≠ closing →
      (line named b (s.advance true).cursor.current).run (s.advance true) = (.ok b', t) →
      Turn closing named b' t b'' u → Turn closing named b s b'' u

theorem Turn.onward (h : Turn closing named b s b' t) : s.Onward t := by
  induction h with
  | first => exact .refl _
  | next _ _ hline _ ih =>
    exact ((State.advance_onward _ true).trans (onward_of_run hline)).trans ih

/-- In a turn, the rest of the lines is still to be read. -/
theorem Turn.run_eq (h : Turn closing named b s b' t) :
    (lines closing named b).run s = (lines closing named b').run t := by
  induction h with
  | first => rfl
  | next hend hopen hline _ ih =>
    rw [lines_line hend hopen hline]
    exact ih

end Turns

section Load

variable {σ : Type} [RenderSystem σ]

/-- A loop over lines: what closes it, how a line with a name is read, and what it starts from. -/
structure LineLoop (σ : Type) where
  Carried : Type
  closing : TokenKind
  named : Carried → Token → Parser (Scene σ) Carried
  start : Carried

/-- The loop that reads a script, or the body of a block. -/
def regionLoop : Option BlockKind → LineLoop σ
  | none => ⟨Unit, .endOfFile, declaration, ()⟩
  | some .material => ⟨Unit, .symbol .rightBrace, materialLine, ()⟩
  | some .shader => ⟨Unit, .symbol .rightBrace, dialectBlock, ()⟩
  | some .dialect => ⟨Unit, .symbol .rightBrace, stageBlock, ()⟩
  | some .stage => ⟨Unit, .symbol .rightBrace, stageLine, ()⟩
  | some .vertexFormat => ⟨Unit, .symbol .rightBrace, attributeBlock, ()⟩
  | some (.component a) => ⟨VertexAttribute, .symbol .rightBrace, componentLine, a⟩
  | some .texture => ⟨Unit, .symbol .rightBrace, textureLine, ()⟩
  | some .filter => ⟨Unit, .symbol .rightBrace, filterLine, ()⟩
  | some .textureLayer => ⟨Unit, .symbol .rightBrace, layerLine, ()⟩

/-- The lines of the loop from one of its turns on. -/
def LineLoop.rest (loop : LineLoop σ) (b : loop.Carried) : Parser (Scene σ) Unit := do
  let _ ← lines loop.closing loop.named b

/-- The loop, started in `u`, comes to a turn in `v` that carries `b`. -/
def LineLoop.Turn (loop : LineLoop σ) (u : State (Scene σ)) (b : loop.Carried)
    (v : State (Scene σ)) : Prop :=
  Parser.Turn loop.closing loop.named loop.start u b v

variable {region : Option BlockKind} {u v : State (Scene σ)}

/-- Reading a script, or the body of a block, from `u` comes to a turn of its loop in `v`. -/
def Turns (region : Option BlockKind) (u v : State (Scene σ)) : Prop :=
  ∃ b, (regionLoop region).Turn u b v

theorem Turns.onward (h : Turns region u v) : u.Onward v := by
  obtain ⟨b, h⟩ := h
  exact h.onward

theorem regionBody_run (region : Option BlockKind) (s : State (Scene σ)) :
    (regionBody region).run s = ((regionLoop region).rest (regionLoop region).start).run s := by
  match region with
  | none => exact (run_bind_pure _ s).symm
  | some kind =>
    cases kind with
    | component a => rfl
    | _ => exact (run_bind_pure _ s).symm

/-- In a turn of its loop, the rest of a region is still to be read. -/
theorem Turns.run_eq (h : Turns region u v) :
    ∃ b, (regionBody region).run u = ((regionLoop region).rest b).run v := by
  obtain ⟨b, h⟩ := h
  refine ⟨b, ?_⟩
  rw [regionBody_run, LineLoop.rest, run_bind, h.run_eq]
  rfl

end Load

end Parser

namespace Loader

variable {σ : Type} [RenderSystem σ]

/-- **Line breaks count exactly while a line value is read.** Every parser leaves their setting as
it found it, whether it succeeds or fails. In every load of tokens, however it ends,
- line breaks do not count in any turn of the loop over declarations, nor in any turn of the loop
  over the lines of a block;
- the run of the script has a course, and at each of its moments line breaks count if a variable
  definition, a string or a color is being read, and else they do not;
- each of these values is read with line breaks counting from its start to its end. -/
theorem lineBreaks_count (l : Loader σ) (files : Files) (tokens : List Token) :
    let s₀ := l.start files tokens
    (∀ {α : Type} (p : Parser (Scene σ) α) (s : Parser.State (Scene σ)),
      (p.run s).2.cursor.lineBreaksCount = s.cursor.lineBreaksCount) ∧
    (∀ t, Parser.Turns none s₀ t → t.cursor.lineBreaksCount = false) ∧
    (∀ kind s t, Parser.Entered s₀ kind s → Parser.Turns (some kind) s t →
      t.cursor.lineBreaksCount = false) ∧
    (∃ moments, Parser.Course none Parser.script s₀ moments) ∧
    (∀ moments, Parser.Course none Parser.script s₀ moments →
      ∀ x ∈ moments, x.state.cursor.lineBreaksCount = x.within.isSome) ∧
    ∀ {α : Type} (v : Parser.LineValue) (q : Parser (Scene σ) α),
      Parser.ReadsLineValue v q → Parser.CountsThroughout v q := by
  intro s₀
  refine ⟨fun p s => (p.onward s).lineBreaks, fun t hturn => hturn.onward.lineBreaks,
    fun kind s t hentered hturn => ?_, Parser.script_composed.exists_course none s₀,
    fun moments hcourse => hcourse.lineBreaks rfl, fun v q hq => hq.countsThroughout⟩
  exact (hentered.opens.1.trans hturn.onward).lineBreaks

end Loader

end MaterialScript
