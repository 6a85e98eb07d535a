/-
Scripts that are the same up to a line.

`State.Forked key more more' s t`: two states differ only in what comes after the
token `key`; in `s` that is `more`, in `t` it is `more'`. Until the run from `s`
passes `key`, both runs do the same (`State.Forked.tandem`): the token itself can be
looked ahead to, but nothing beyond. So both scripts come to the same blocks
(`InBlock.forked`) and to the same line opened by `key` (`BlockKind.Comes.forked`).
-/
import MaterialScript.Proofs.Tandem

namespace MaterialScript.Parser

variable {ρ α β : Type} {key : Token} {more more' : List Token}

namespace State

variable {s t : State ρ}

/-- `t` is `s` with the tokens `more'` to come after `key`, where `s` has the tokens `more`. -/
def Forked (key : Token) (more more' : List Token) (s t : State ρ) : Prop :=
  ∃ ts, s.cursor.rest = ts ++ key :: more ∧ t = s.withRest (ts ++ key :: more')

/-- Both states are on `key`, where their scripts part. -/
structure Parted (key : Token) (more more' : List Token) (s t : State ρ) : Prop where
  current : s.cursor.current = key
  rest : s.cursor.rest = more
  eq : t = s.withRest more'

namespace Forked

theorem length_lt (h : s.Forked key more more' t) : more.length < s.cursor.rest.length := by
  obtain ⟨ts, hrest, -⟩ := h
  simp only [hrest, List.length_append, List.length_cons]
  omega

/-- A step leads both on, or to the token where they part. -/
theorem advance (hkey : key.kind = .name) (h : s.Forked key more more' t) (b : Bool) :
    (s.advance b).Forked key more more' (t.advance b) ∨
      (s.advance b).Parted key more more' (t.advance b) := by
  obtain ⟨ts, hrest, rfl⟩ := h
  obtain ⟨⟨passed, rest, m⟩, bindings, journal, scene⟩ := s
  obtain rfl : rest = _ := hrest
  rcases Cursor.passOver_append_cases (Cursor.skipped ⟨passed, ts ++ key :: more, m⟩ b) passed ts
    with ⟨passed', ts', hpass⟩ | hskip
  · have hpass' : Cursor.passOver (Cursor.skipped ⟨passed, ts ++ key :: more', m⟩ b) passed
        (ts ++ key :: more') = (passed', ts' ++ key :: more') := hpass _
    refine .inl ⟨ts', ?_, ?_⟩
    · simp only [State.advance, Cursor.advance]
      rw [hpass]
    · simp only [State.advance, State.withRest, Cursor.advance]
      rw [hpass, hpass']
  · have hstay : Cursor.skipped ⟨passed, ts ++ key :: more, m⟩ b key = false := by
      simp [Cursor.skipped, Cursor.skips, Cursor.skipsWhen, hkey]
    have hpass : ∀ us, Cursor.passOver (Cursor.skipped ⟨passed, ts ++ key :: more, m⟩ b) passed
        (ts ++ key :: us) = (key :: (ts.reverse ++ passed), us) := by
      intro us
      rw [Cursor.passOver_append_of_skipped hskip, Cursor.passOver, hstay]
      rfl
    have hpass' : Cursor.passOver (Cursor.skipped ⟨passed, ts ++ key :: more', m⟩ b) passed
        (ts ++ key :: more') = (key :: (ts.reverse ++ passed), more') := hpass _
    refine .inr ⟨?_, ?_, ?_⟩
    · simp only [State.advance, Cursor.advance]
      rw [hpass]
      rfl
    · simp only [State.advance, Cursor.advance]
      rw [hpass]
    · simp only [State.advance, State.withRest, Cursor.advance]
      rw [hpass, hpass']

/-- A step leads both to the same token. -/
theorem current_advance (hkey : key.kind = .name) (h : s.Forked key more more' t) (b : Bool) :
    (t.advance b).cursor.current = (s.advance b).cursor.current := by
  rcases h.advance hkey b with ⟨ts, -, heq⟩ | hparted
  · rw [heq]
    rfl
  · rw [hparted.eq]
    rfl

theorem atEnd_iff (hkey : key.kind = .name) (h : s.Forked key more more' t) :
    s.AtEnd ↔ t.AtEnd :=
  Swapped.atEnd_iff (List.cons_ne_nil _ _) (List.cons_ne_nil _ _) h (h.current_advance hkey true)

/-- Both runs do the same while `key` is still to come. -/
theorem tandem (hkey : key.kind = .name) :
    Tandem (Forked (ρ := ρ) key more more') (more.length + 1) :=
  Swapped.tandem (List.cons_ne_nil _ _) hkey

end Forked

end State

section Runs

variable {s t u : State ρ}

/-- The line that is handed over is not the end yet. -/
theorem HandsLine.length_rest_lt {closing : TokenKind} {named : β → Token → Parser ρ β} {b b' : β}
    (h : HandsLine closing named b s b' t) : t.cursor.rest.length < s.cursor.rest.length := by
  have step : ∀ {s : State ρ}, ¬ s.AtEnd →
      (s.advance true).cursor.rest.length < s.cursor.rest.length := fun hend =>
    Cursor.length_rest_advance_lt _ true fun hnil => hend (.inl hnil)
  induction h with
  | here hend _ _ => exact step hend
  | later hend _ hline _ ih =>
    exact (ih.trans_le (onward_of_run hline).leads.length_rest_le).trans (step hend)

/-- Both scripts come to the same lines up to the one opened by `key`. -/
theorem HandsLine.forked {closing : TokenKind} {named : β → Token → Parser ρ β} {b b' : β}
    (hkey : key.kind = .name) (hnamed : ∀ b t, Steady (named b t))
    (h : HandsLine closing named b s b' u) (hst : s.Forked key more more' t)
    (hbefore : more.length ≤ u.cursor.rest.length) :
    ∃ v, HandsLine closing named b t b' v ∧
      (u.Forked key more more' v ∨ u.Parted key more more' v) := by
  induction h generalizing t with
  | @here b s hend hname hdiscard =>
    have hcurrent := hst.current_advance hkey true
    refine ⟨t.advance true, .here ((not_congr (hst.atEnd_iff hkey)).1 hend) ?_ ?_,
      hst.advance hkey true⟩
    · rwa [hcurrent]
    · rwa [hcurrent]
  | later hend hopen hline hlater ih =>
    obtain ⟨hend', hcurrent, x, hx, hwx⟩ := line_repeats (State.Forked.tandem hkey) hnamed hst hend
      hline (hbefore.trans_lt hlater.length_rest_lt)
    obtain ⟨v, hv, huv⟩ := ih hwx hbefore
    exact ⟨v, .later hend' (hcurrent ▸ hopen) hx hv, huv⟩

end Runs

section Load

variable {σ : Type} [RenderSystem σ] {s₀ t₀ s t u v : State (Scene σ)} {kind : BlockKind}
  {name : String} {k : kind.Carried → Parser (Scene σ) Unit} (hkey : key.kind = .name)
include hkey

theorem BlockKind.Comes.forked {c : kind.Carried} (h : kind.Comes u c v)
    (hut : u.Forked key more more' t) (hbefore : more.length ≤ v.cursor.rest.length) :
    ∃ w, kind.Comes t c w ∧ (v.Forked key more more' w ∨ v.Parted key more more' w) :=
  HandsLine.forked hkey kind.line_steady h hut hbefore

/-- Both scripts come to the same blocks, and go on with the same after them. -/
theorem InBlock.forked (h : InBlock s₀ kind name u k) (hst : s₀.Forked key more more' t₀)
    (hbefore : more.length < u.cursor.rest.length) :
    ∃ v, InBlock t₀ kind name v k ∧ u.Forked key more more' v :=
  h.repeats (State.Forked.tandem hkey) hst hbefore

end Load

end MaterialScript.Parser
