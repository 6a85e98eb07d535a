/-
Parsers over a token cursor.

A parser reads tokens, consults and binds variables, notes what is worth
telling, and builds something of type `ρ`. It answers a value or an error, and
in both cases the state it ended in: what was built before an error stays.

By its type a parser moves its cursor forward over the same tokens, leaves the
setting of line breaks as it found it and only adds to the journal
(`State.Onward`), so every loop over tokens ends. The one loop is `overTokens`;
all others are made from it.
-/
import MaterialScript.Cursor
import MaterialScript.ScriptError
import MaterialScript.Variables

namespace MaterialScript

/-- What parsers read and write. -/
structure Parser.State (ρ : Type) where
  cursor : Cursor
  bindings : Variables
  journal : Journal
  /-- What the declarations read so far have built. -/
  scene : ρ

namespace Parser.State

variable {ρ : Type}

/-- The cursor has moved on under the same setting of line breaks, and notices have only been
added. -/
structure Onward (s t : State ρ) : Prop where
  leads : s.cursor.Leads t.cursor
  lineBreaks : t.cursor.lineBreaksCount = s.cursor.lineBreaksCount
  journal : s.journal <+: t.journal

theorem Onward.refl (s : State ρ) : s.Onward s := ⟨.refl _, rfl, List.prefix_refl _⟩

theorem Onward.trans {s t u : State ρ} (hst : s.Onward t) (htu : t.Onward u) : s.Onward u :=
  ⟨hst.leads.trans htu.leads, htu.lineBreaks.trans hst.lineBreaks, hst.journal.trans htu.journal⟩

/-- The state one token further on. -/
def advance (s : State ρ) (skipWhitespace : Bool) : State ρ :=
  { s with cursor := s.cursor.advance skipWhitespace }

theorem advance_onward (s : State ρ) (skipWhitespace : Bool) :
    s.Onward (s.advance skipWhitespace) :=
  ⟨Cursor.advance_leads _ _, rfl, List.prefix_refl _⟩

/-- Nothing is left to read but whitespace and the end of the file. -/
abbrev AtEnd (s : State ρ) : Prop :=
  s.cursor.rest = [] ∨ (s.advance true).cursor.current.isEndOfFile

/-- The state with another setting for line breaks. -/
def setLineBreaks (s : State ρ) (count : Bool) : State ρ :=
  { s with cursor := { s.cursor with lineBreaksCount := count } }

end Parser.State

/-- A parser that builds on `ρ` and answers an `α`. -/
structure Parser (ρ α : Type) where
  run : Parser.State ρ → Except ScriptError α × Parser.State ρ
  onward : ∀ s : Parser.State ρ, s.Onward (run s).2

namespace Parser

variable {ρ α β γ : Type}

/-- Answers without reading. -/
protected def pure (a : α) : Parser ρ α := ⟨fun s => (.ok a, s), fun s => .refl s⟩

/-- Ends reading with an error. -/
def fail (e : ScriptError) : Parser ρ α := ⟨fun s => (.error e, s), fun s => .refl s⟩

/-- Runs `p`, then what `f` makes of its answer; an error of `p` is the answer of both. -/
protected def bind (p : Parser ρ α) (f : α → Parser ρ β) : Parser ρ β where
  run s :=
    match p.run s with
    | (.ok a, t) => (f a).run t
    | (.error e, t) => (.error e, t)
  onward s := by
    have hp := p.onward s
    split
    · rename_i a t h
      rw [h] at hp
      exact hp.trans ((f a).onward t)
    · rename_i e t h
      rw [h] at hp
      exact hp

instance : Monad (Parser ρ) where
  pure := Parser.pure
  bind := Parser.bind

@[simp] theorem run_pure (a : α) (s : State ρ) :
    (Pure.pure a : Parser ρ α).run s = (.ok a, s) := rfl

@[simp] theorem run_fail (e : ScriptError) (s : State ρ) :
    (fail e : Parser ρ α).run s = (.error e, s) := rfl

theorem run_bind (p : Parser ρ α) (f : α → Parser ρ β) (s : State ρ) :
    (p >>= f).run s =
      match p.run s with
      | (.ok a, t) => (f a).run t
      | (.error e, t) => (.error e, t) := rfl

/-- After a part that succeeds the rest runs. -/
theorem run_bind_of_ok {p : Parser ρ α} {f : α → Parser ρ β} {s u : State ρ} {a : α}
    (h : p.run s = (.ok a, u)) : (p >>= f).run s = (f a).run u := by
  rw [run_bind, h]

/-- After a part that fails nothing runs. -/
theorem run_bind_of_error {p : Parser ρ α} {f : α → Parser ρ β} {s u : State ρ} {e : ScriptError}
    (h : p.run s = (.error e, u)) : (p >>= f).run s = (.error e, u) := by
  rw [run_bind, h]

theorem run_bind_assoc (p : Parser ρ α) (f : α → Parser ρ β) (g : β → Parser ρ γ) (s : State ρ) :
    ((p >>= f) >>= g).run s = (p >>= fun a => f a >>= g).run s := by
  simp only [run_bind]
  rcases p.run s with ⟨_ | _, _⟩ <;> rfl

theorem run_bind_pure (p : Parser ρ Unit) (s : State ρ) :
    (p >>= fun _ => pure ()).run s = p.run s := by
  rw [run_bind]
  rcases p.run s with ⟨_ | _, _⟩ <;> rfl

/-- Where a run ends, whatever it answers, is on from where it starts. -/
theorem onward_of_run {p : Parser ρ α} {answer : Except ScriptError α} {s t : State ρ}
    (h : p.run s = (answer, t)) : s.Onward t := by
  have hp := p.onward s
  rw [h] at hp
  exact hp

/-- What succeeds in two steps succeeds in each. -/
theorem run_bind_eq_ok {p : Parser ρ α} {f : α → Parser ρ β} {s u : State ρ} {b : β}
    (h : (p >>= f).run s = (.ok b, u)) :
    ∃ a t, p.run s = (.ok a, t) ∧ (f a).run t = (.ok b, u) := by
  rw [run_bind] at h
  split at h
  · exact ⟨_, _, ‹_›, h⟩
  · cases h

/-- Ends reading with a fault at a token. -/
def failAt (t : Token) (fault : Fault) : Parser ρ α := fail (.placed t.position fault)

/-- Ends reading with a fault at a token if `b` holds. -/
def failIf (b : Bool) (t : Token) (fault : Fault) : Parser ρ Unit :=
  if b then failAt t fault else Parser.pure ()

/-- Adds notices to the journal. -/
def note (notices : Journal) : Parser ρ Unit where
  run s := (.ok (), { s with journal := s.journal ++ notices })
  onward _ := ⟨.refl _, rfl, List.prefix_append _ _⟩

/-- Adds notices to the journal if `b` holds. -/
def noteIf (b : Bool) (notices : Journal) : Parser ρ Unit :=
  if b then note notices else Parser.pure ()

/-- Answers from the variables. -/
def consult (f : Variables → α) : Parser ρ α := ⟨fun s => (.ok (f s.bindings), s), fun s => .refl s⟩

/-- Binds or replaces a variable. -/
def setVariable (name : String) (value : Value) : Parser ρ Unit where
  run s := (.ok (), { s with bindings := s.bindings.set name value })
  onward _ := ⟨.refl _, rfl, List.prefix_refl _⟩

/-- Changes what has been built, and answers. -/
def build (f : ρ → α × ρ) : Parser ρ α where
  run s := (.ok (f s.scene).1, { s with scene := (f s.scene).2 })
  onward _ := ⟨.refl _, rfl, List.prefix_refl _⟩

/-- Answers from what has been built. -/
def inspect (f : ρ → α) : Parser ρ α := build fun r => (f r, r)

/-- Changes what has been built. -/
def modify (f : ρ → ρ) : Parser ρ Unit := build fun r => ((), f r)

/-- Steps on to the next token, which may be the end of the file. -/
def take (skipWhitespace : Bool) : Parser ρ Token where
  run s := (.ok (s.advance skipWhitespace).cursor.current, s.advance skipWhitespace)
  onward s := s.advance_onward skipWhitespace

/-- The token `take` would step on, without moving. -/
def peek : Parser ρ Token := ⟨fun s => (.ok (s.cursor.peek true), s), fun s => .refl s⟩

/-- The token read last. -/
def current : Parser ρ Token := ⟨fun s => (.ok s.cursor.current, s), fun s => .refl s⟩

/-- Counts line breaks as tokens while `p` runs, whether it succeeds or fails. -/
def withLineBreaks (p : Parser ρ α) : Parser ρ α where
  run s :=
    let (answer, t) := p.run (s.setLineBreaks true)
    (answer, t.setLineBreaks s.cursor.lineBreaksCount)
  onward s := by
    obtain ⟨⟨ts, hrest, hpassed⟩, -, hjournal⟩ := p.onward (s.setLineBreaks true)
    exact ⟨⟨ts, hrest, hpassed⟩, rfl, hjournal⟩

/-- It runs like `p` where line breaks count already. -/
theorem run_withLineBreaks {p : Parser ρ α} {s u : State ρ} {answer : Except ScriptError α}
    (h : p.run (s.setLineBreaks true) = (answer, u)) :
    (withLineBreaks p).run s = (answer, u.setLineBreaks s.cursor.lineBreaksCount) := by
  simp [withLineBreaks, h]

/-- What a loop does after a token: go on with `a`, or stop with `b`. -/
inductive Progress (α β : Type) where
  | more (a : α)
  | done (b : β)

/-- Hands one token after another to `body` until it stops; at the end of the file `finish`
answers. -/
def runOverTokens (body : α → Token → Parser ρ (Progress α β)) (finish : α → Token → Parser ρ β)
    (a : α) (s : State ρ) : Except ScriptError β × State ρ :=
  let t := s.advance true
  if _hend : s.AtEnd then
    (finish a t.cursor.current).run t
  else
    match _hbody : (body a t.cursor.current).run t with
    | (.ok (.more a'), u) => runOverTokens body finish a' u
    | (.ok (.done b), u) => (.ok b, u)
    | (.error e, u) => (.error e, u)
termination_by s.cursor.rest.length
decreasing_by
  have hmoved := s.cursor.length_rest_advance_lt true (fun hnil => _hend (.inl hnil))
  have hrest := ((body a t.cursor.current).onward t).leads.length_rest_le
  rw [_hbody] at hrest
  exact Nat.lt_of_le_of_lt hrest hmoved

/-- Induction over the tokens a loop hands to its body. -/
@[elab_as_elim]
theorem loop_induction (body : α → Token → Parser ρ (Progress α β)) {motive : α → State ρ → Prop}
    (atEnd : ∀ a s, s.AtEnd → motive a s)
    (more : ∀ a s a' u, ¬ s.AtEnd →
      (body a (s.advance true).cursor.current).run (s.advance true) = (.ok (.more a'), u) →
      motive a' u → motive a s)
    (done : ∀ a s b u, ¬ s.AtEnd →
      (body a (s.advance true).cursor.current).run (s.advance true) = (.ok (.done b), u) →
      motive a s)
    (error : ∀ a s e u, ¬ s.AtEnd →
      (body a (s.advance true).cursor.current).run (s.advance true) = (.error e, u) →
      motive a s)
    (a : α) (s : State ρ) : motive a s :=
  runOverTokens.induct body motive atEnd (fun a s hend a' u => more a s a' u hend)
    (fun a s hend b u => done a s b u hend) (fun a s hend e u => error a s e u hend) a s

section Loop

variable {body : α → Token → Parser ρ (Progress α β)} {finish : α → Token → Parser ρ β}
  {a a' : α} {s u : State ρ}

theorem runOverTokens_atEnd (hend : s.AtEnd) :
    runOverTokens body finish a s =
      (finish a (s.advance true).cursor.current).run (s.advance true) := by
  rw [runOverTokens, dif_pos hend]

theorem runOverTokens_more (hend : ¬ s.AtEnd)
    (hbody : (body a (s.advance true).cursor.current).run (s.advance true) = (.ok (.more a'), u)) :
    runOverTokens body finish a s = runOverTokens body finish a' u := by
  rw [runOverTokens, dif_neg hend]
  split <;> simp_all

theorem runOverTokens_done {b : β} (hend : ¬ s.AtEnd)
    (hbody : (body a (s.advance true).cursor.current).run (s.advance true) = (.ok (.done b), u)) :
    runOverTokens body finish a s = (.ok b, u) := by
  rw [runOverTokens, dif_neg hend]
  split <;> simp_all

theorem runOverTokens_error {e : ScriptError} (hend : ¬ s.AtEnd)
    (hbody : (body a (s.advance true).cursor.current).run (s.advance true) = (.error e, u)) :
    runOverTokens body finish a s = (.error e, u) := by
  rw [runOverTokens, dif_neg hend]
  split <;> simp_all

/-- A loop depends on its state only by the step it starts with. -/
theorem runOverTokens_congr {t : State ρ} (hadvance : s.advance true = t.advance true)
    (hend : s.AtEnd ↔ t.AtEnd) :
    runOverTokens body finish a s = runOverTokens body finish a t := by
  by_cases h : s.AtEnd
  · rw [runOverTokens_atEnd h, runOverTokens_atEnd (hend.1 h), hadvance]
  · have ht : ¬ t.AtEnd := fun ht => h (hend.2 ht)
    rcases hbody : (body a (t.advance true).cursor.current).run (t.advance true)
      with ⟨e | a' | b, u⟩
    · rw [runOverTokens_error ht hbody, runOverTokens_error h (by rw [hadvance]; exact hbody)]
    · rw [runOverTokens_more ht hbody, runOverTokens_more h (by rw [hadvance]; exact hbody)]
    · rw [runOverTokens_done ht hbody, runOverTokens_done h (by rw [hadvance]; exact hbody)]

/-- What each step and each round keep, a loop keeps. -/
theorem runOverTokens_keeps {I : State ρ → Prop} (hadvance : ∀ s, I s → I (s.advance true))
    (hbody : ∀ a t s, I s → I ((body a t).run s).2)
    (hfinish : ∀ a t s, I s → I ((finish a t).run s).2) (h : I s) :
    I (runOverTokens body finish a s).2 := by
  induction a, s using loop_induction body with
  | atEnd a s hend =>
    rw [runOverTokens_atEnd hend]
    exact hfinish a _ _ (hadvance s h)
  | more a s a' u hend hround ih =>
    have hu := hbody a (s.advance true).cursor.current _ (hadvance s h)
    rw [hround] at hu
    rw [runOverTokens_more hend hround]
    exact ih hu
  | done a s b u hend hround =>
    have hu := hbody a (s.advance true).cursor.current _ (hadvance s h)
    rw [hround] at hu
    rw [runOverTokens_done hend hround]
    exact hu
  | error a s e u hend hround =>
    have hu := hbody a (s.advance true).cursor.current _ (hadvance s h)
    rw [hround] at hu
    rw [runOverTokens_error hend hround]
    exact hu

end Loop

theorem runOverTokens_onward (body : α → Token → Parser ρ (Progress α β))
    (finish : α → Token → Parser ρ β) (a : α) (s : State ρ) :
    s.Onward (runOverTokens body finish a s).2 :=
  runOverTokens_keeps (I := fun t => s.Onward t) (fun t h => h.trans (t.advance_onward true))
    (fun a x t h => h.trans ((body a x).onward t)) (fun a x t h => h.trans ((finish a x).onward t))
    (.refl s)

/-- A loop over tokens that carries `a`. -/
def overTokens (body : α → Token → Parser ρ (Progress α β)) (finish : α → Token → Parser ρ β)
    (a : α) : Parser ρ β :=
  ⟨runOverTokens body finish a, runOverTokens_onward body finish a⟩

end Parser

end MaterialScript
