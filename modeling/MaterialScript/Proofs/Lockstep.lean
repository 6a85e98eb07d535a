/-
Runs over a script and over the front of it.

`Cut more s t`: two states differ only in what is to come; where `s` has the
end of the file, `t` has the tokens `more`. Until the run from `s` passes the
end of the file, both runs do the same (`Composed.inStep`). A parser that looks
ahead may see the end of the file before; then only whitespace is left
(`Spent`), so the block it stands in is never closed, and a run that succeeds
cannot have met with this (`blockBody_follows`).
-/
import MaterialScript.Proofs.Blocks
import MaterialScript.Proofs.SceneChange

namespace MaterialScript

namespace Cursor

/-- What a step passes depends on what comes after only where all before it is skipped. -/
theorem passOver_append_cases (skipped : Token → Bool) (passed ts : List Token) :
    (∃ passed' ts', ∀ us, passOver skipped passed (ts ++ us) = (passed', ts' ++ us)) ∨
      ∀ t ∈ ts, skipped t := by
  induction ts generalizing passed with
  | nil => exact .inr (by simp)
  | cons t ts ih =>
    cases ht : skipped t with
    | false => exact .inl ⟨t :: passed, ts, fun us => by simp [passOver, ht]⟩
    | true =>
      rcases ih (t :: passed) with ⟨passed', ts', h⟩ | h
      · refine .inl ⟨passed', ts', fun us => ?_⟩
        rw [List.cons_append, passOver, if_pos ht]
        exact h us
      · exact .inr (by simpa [ht] using h)

end Cursor

namespace Parser

variable {ρ α β : Type} {more : List Token}

/-- `t` is `s` with the tokens `more` to come where `s` has the end of the file. -/
def State.Cut (more : List Token) (s t : State ρ) : Prop :=
  ∃ ts e, e.isEndOfFile ∧ s.cursor.rest = ts ++ [e] ∧
    t = { s with cursor := { s.cursor with rest := ts ++ more } }

/-- Nothing is left, or nothing but whitespace where the parser may look ahead. -/
def State.Spent (looks : Prop) (s : State ρ) : Prop :=
  s.cursor.rest = [] ∨ looks ∧ ∀ t ∈ s.cursor.rest, t.isEndOfFile ∨ t.kind.isWhitespace

theorem State.Onward.rest_eq_nil {s t : State ρ} (h : s.Onward t) (hrest : s.cursor.rest = []) :
    t.cursor.rest = [] := by
  obtain ⟨ts, hts⟩ := h.leads
  exact (List.append_eq_nil_iff.1 (hts.rest.symm.trans hrest)).2

theorem State.Onward.spent {looks : Prop} {s t : State ρ} (h : s.Onward t) (hs : s.Spent looks) :
    t.Spent looks := by
  rcases hs with hrest | ⟨hlooks, hrest⟩
  · exact .inl (h.rest_eq_nil hrest)
  · obtain ⟨ts, hts⟩ := h.leads
    refine .inr ⟨hlooks, fun x hx => hrest x ?_⟩
    rw [hts.rest]
    exact List.mem_append_right ts hx

namespace State.Cut

variable {s t : State ρ}

theorem rest_ne_nil (h : s.Cut more t) : s.cursor.rest ≠ [] := by
  obtain ⟨ts, e, -, hrest, -⟩ := h
  simp [hrest]

theorem lineBreaks (h : s.Cut more t) : t.cursor.lineBreaksCount = s.cursor.lineBreaksCount := by
  obtain ⟨ts, e, -, -, rfl⟩ := h
  rfl

theorem current (h : s.Cut more t) : t.cursor.current = s.cursor.current := by
  obtain ⟨ts, e, -, -, rfl⟩ := h
  rfl

theorem setLineBreaks (h : s.Cut more t) (count : Bool) :
    (s.setLineBreaks count).Cut more (t.setLineBreaks count) := by
  obtain ⟨ts, e, he, hrest, rfl⟩ := h
  exact ⟨ts, e, he, hrest, rfl⟩

/-- A step leads both on, or the shorter one to the end of its file. -/
theorem advance (h : s.Cut more t) (b : Bool) :
    (s.advance b).Cut more (t.advance b) ∨
      (s.advance b).cursor.rest = [] ∧ (s.advance b).cursor.current.isEndOfFile ∧
        ∀ x ∈ s.cursor.rest, x.isEndOfFile ∨ s.cursor.skipped b x := by
  obtain ⟨ts, e, he, hrest, rfl⟩ := h
  obtain ⟨⟨passed, rest, m⟩, bindings, journal, scene⟩ := s
  have hrest : rest = ts ++ [e] := hrest
  subst hrest
  rcases Cursor.passOver_append_cases (Cursor.skipped ⟨passed, ts ++ [e], m⟩ b) passed ts with
    ⟨passed', ts', hpass⟩ | hskip
  · refine .inl ⟨ts', e, he, ?_, ?_⟩
    · simp only [State.advance, Cursor.advance]
      rw [hpass]
    · have hmore : Cursor.passOver (Cursor.skipped ⟨passed, ts ++ more, m⟩ b) passed (ts ++ more) =
          (passed', ts' ++ more) := hpass more
      simp only [State.advance, Cursor.advance]
      rw [hpass, hmore]
  · have hstay : Cursor.skipped ⟨passed, ts ++ [e], m⟩ b e = false := by
      rw [Cursor.skipped, Cursor.skips, Cursor.not_skipsWhen_of_isEndOfFile he, Bool.and_false]
    have hpass : Cursor.passOver (Cursor.skipped ⟨passed, ts ++ [e], m⟩ b) passed (ts ++ [e]) =
        (e :: (ts.reverse ++ passed), []) := by
      rw [Cursor.passOver_append_of_skipped hskip, Cursor.passOver, hstay]
      rfl
    refine .inr ⟨?_, ?_, fun x hx => ?_⟩
    · simp only [State.advance, Cursor.advance]
      rw [hpass]
    · simp only [State.advance, Cursor.advance]
      rw [hpass]
      exact he
    · rcases List.mem_append.1 hx with hx | hx
      · exact .inr (hskip x hx)
      · rw [List.mem_singleton.1 hx]
        exact .inl he

/-- A loop that may go on goes on in both. -/
theorem atEnd_iff (h : s.Cut more t) (hstep : (s.advance true).Cut more (t.advance true)) :
    s.AtEnd ↔ t.AtEnd := by
  have hrest := h.rest_ne_nil
  have hrest' : t.cursor.rest ≠ [] := by
    obtain ⟨ts, e, -, hts, rfl⟩ := h
    intro hnil
    have hnil : ts = [] := (List.append_eq_nil_iff.1 hnil).1
    have hmoved := s.cursor.length_rest_advance_lt true hrest
    rw [hts, hnil] at hmoved
    have hempty : (s.advance true).cursor.rest = [] := by
      simpa [State.advance] using hmoved
    exact hstep.rest_ne_nil hempty
  simp only [State.AtEnd, hrest, hrest', false_or, hstep.current]

end State.Cut

theorem State.Cut.lockstep {may : ∀ α : Type, (ρ → α × ρ) → Prop} {looks : Prop} :
    Lockstep may looks (State.Cut more) (State.Spent (ρ := ρ) looks) where
  onward := State.Onward.spent
  escaped _ h := h
  current := State.Cut.current
  lineBreaks := State.Cut.lineBreaks
  bindings := by
    rintro s t ⟨ts, e, -, -, rfl⟩
    exact .refl _
  advance h b := (h.advance b).imp_right fun hspent => .inl hspent.1
  atEnd := State.Cut.atEnd_iff
  peek := by
    intro hlooks s t h
    rcases h.advance true with hstep | ⟨-, -, hskip⟩
    · exact .inl hstep.current
    · refine .inr (.inr ⟨hlooks, fun x hx => (hskip x hx).imp_right fun h => ?_⟩)
      exact Token.isWhitespace_of_skipsWhen h
  setLineBreaks := State.Cut.setLineBreaks
  note := by
    rintro s t ⟨ts, e, he, hrest, rfl⟩ notices
    exact ⟨ts, e, he, hrest, rfl⟩
  setVariable := by
    rintro s t ⟨ts, e, he, hrest, rfl⟩ name value
    exact ⟨ts, e, he, hrest, rfl⟩
  build := by
    rintro α f _ s t ⟨ts, e, he, hrest, rfl⟩
    exact ⟨rfl, ts, e, he, hrest, rfl⟩

/-- **A parser does the same over the front of a script as over the whole**, until the front is
spent. -/
theorem Composed.inStep {may : ∀ α : Type, (ρ → α × ρ) → Prop} {looks : Prop} {p : Parser ρ α}
    (h : Composed may looks p) {s t : State ρ} (hst : s.Cut more t) :
    SameRun (State.Cut more) (p.run s) (p.run t) ∨ (p.run s).2.Spent looks :=
  h.lockstep State.Cut.lockstep hst

/-! ## Runs that succeed -/

/-- A run of `p` that succeeds goes the same way over a longer script, unless it ends with the end
of the file. -/
def Follows (p : Parser ρ α) : Prop :=
  ∀ ⦃more : List Token⦄ ⦃s t : State ρ⦄ ⦃a : α⦄ ⦃u : State ρ⦄, Ends s.cursor.tokens →
    s.cursor.lineBreaksCount = false → s.Cut more t → p.run s = (.ok a, u) →
    (∃ v, p.run t = (.ok a, v) ∧ u.Cut more v) ∨ u.cursor.rest = []

namespace Follows

variable {p : Parser ρ α} {f : α → Parser ρ β}

theorem of_refuses (h : Refuses p) : Follows p := fun _ _ _ _ _ _ _ _ hrun => absurd hrun (@h _ _ _)

/-- What does not look ahead. -/
theorem of_composed {may : ∀ α : Type, (ρ → α × ρ) → Prop} (h : Composed may False p) :
    Follows p := by
  intro more s t a u _ _ hst hrun
  have hstep := h.inStep hst
  rw [hrun] at hstep
  rcases hstep with hstep | hrest | ⟨hlooks, -⟩
  · exact .inl hstep.eq_right
  · exact .inr hrest
  · exact hlooks.elim

theorem of_looksOnly (h : Composed LooksOnly False p) : Follows p := of_composed h

theorem pure (a : α) : Follows (Pure.pure a : Parser ρ α) := by
  intro more s t b u _ _ hst hrun
  cases hrun
  exact .inl ⟨t, rfl, hst⟩

theorem bind (hp : Follows p) (hf : ∀ a, Follows (f a)) : Follows (p >>= f) := by
  intro more s t b u hends hbreaks hst hrun
  obtain ⟨a, w, hpw, hfu⟩ := run_bind_eq_ok hrun
  have hw := onward_of_run hpw
  rcases hp hends hbreaks hst hpw with ⟨v, hpv, hwv⟩ | hrest
  · rcases hf a (hw.ends hends) (hw.lineBreaks.trans hbreaks) hwv hfu with ⟨x, hfx, hux⟩ | hrest
    · refine .inl ⟨x, ?_, hux⟩
      rw [run_bind, hpv]
      exact hfx
    · exact .inr hrest
  · exact .inr ((onward_of_run hfu).rest_eq_nil hrest)

end Follows

/-- Where only whitespace is left, a loop is at its end. -/
theorem State.Spent.atEnd {s : State ρ} (h : s.Spent True) (hends : Ends s.cursor.tokens)
    (hbreaks : s.cursor.lineBreaksCount = false) : s.AtEnd := by
  rcases Cursor.advance_cases hends true with ⟨between, hpasses, -, hstay⟩ | ⟨hrest, -⟩
  · right
    have hmem : (s.cursor.advance true).current ∈ s.cursor.rest := by
      rw [hpasses.rest]
      simp
    rcases h with hrest | ⟨-, hspent⟩
    · rw [hrest] at hmem
      cases hmem
    · rcases hspent _ hmem with heof | hspace
      · exact heof
      · rw [Cursor.skipped, Cursor.skips, hbreaks] at hstay
        rw [Cursor.skipsWhen_false, hspace] at hstay
        cases hstay
  · exact .inl hrest

/-- A block is read to its end in the front of a script only if the whole script is read so. -/
theorem blockBody_follows {may : ∀ α : Type, (ρ → α × ρ) → Prop} {named : β → Token → Parser ρ β}
    (hnamed : ∀ b t, Composed may True (named b t)) (b : β) : Follows (blockBody named b) := by
  intro more s t b' u hends hbreaks hst hrun
  suffices key : Ends s.cursor.tokens → s.cursor.lineBreaksCount = false →
      ¬ s.Spent True ∧ ∀ t, s.Cut more t →
        ∃ v, (blockBody named b).run t = (.ok b', v) ∧ u.Cut more v from
    .inl ((key hends hbreaks).2 t hst)
  -- a round that goes on has not met with the end of the file
  have onward : ∀ {s t : State ρ}, ¬ s.AtEnd → s.Cut more t →
      (s.advance true).Cut more (t.advance true) ∧ ¬ t.AtEnd := by
    intro s t hend hst
    rcases hst.advance true with hstep | ⟨-, heof, -⟩
    · exact ⟨hstep, (not_congr (hst.atEnd_iff hstep)).1 hend⟩
    · exact absurd (.inr heof) hend
  refine lines_induction
    (motive := fun b s => Ends s.cursor.tokens → s.cursor.lineBreaksCount = false →
      ¬ s.Spent True ∧ ∀ t, s.Cut more t →
        ∃ v, (blockBody named b).run t = (.ok b', v) ∧ u.Cut more v)
    (fun b s hclose hb hu hends hbreaks => ?_)
    (fun b s b'' w hend hopen hline ih hends hbreaks => ?_) hrun
  · have hend : ¬ s.AtEnd := by
      intro hend
      obtain ⟨-, -, -, heof⟩ := Reads.step_of_atEnd hends hend
      simp [Token.isEndOfFile, hclose] at heof
    refine ⟨fun hspent => hend (hspent.atEnd hends hbreaks), fun t hst => ?_⟩
    obtain ⟨hstep, -⟩ := onward hend hst
    rw [hb, hu]
    exact ⟨t.advance true, lines_close (by rw [hstep.current]; exact hclose), hstep⟩
  · refine ⟨fun hspent => hend (hspent.atEnd hends hbreaks), fun t hst => ?_⟩
    obtain ⟨hstep, hend'⟩ := onward hend hst
    have hw := (s.advance_onward true).trans (onward_of_run hline)
    obtain ⟨hspent, ih⟩ := ih (hw.ends hends) (hw.lineBreaks.trans hbreaks)
    have hrun := (line_composed hnamed b (s.advance true).cursor.current).inStep hstep
    rw [hline] at hrun
    obtain ⟨x, hx, hwx⟩ := (hrun.resolve_right hspent).eq_right
    obtain ⟨v, hv, huv⟩ := ih x hwx
    rw [← hstep.current] at hopen hx
    exact ⟨v, (lines_line hend' hopen hx).trans hv, huv⟩

theorem discardedBlock_follows : Follows (discardedBlock : Parser ρ Unit) := by
  intro more s t a u hends hbreaks hst hrun
  obtain ⟨c, w, hpeek, hskip⟩ := run_bind_eq_ok hrun
  cases hpeek
  rcases hst.advance true with hstep | ⟨-, heof, -⟩
  · split at hskip
    · rename_i hopen
      have hpeek : t.cursor.peek true = s.cursor.peek true := hstep.current
      rcases Follows.of_looksOnly skipBlock_composed hends hbreaks hst hskip with
        ⟨v, hv, huv⟩ | hrest
      · refine .inl ⟨v, ?_, huv⟩
        rw [discardedBlock, run_bind]
        change (if (t.cursor.peek true).isSymbol .leftBrace then skipBlock
          else unexpected (t.cursor.peek true)).run t = _
        rw [hpeek, if_pos hopen]
        exact hv
      · exact .inr hrest
    · cases hskip
  · have heof : (s.cursor.peek true).isEndOfFile := heof
    have heof : (s.cursor.peek true).kind = .endOfFile := by
      simpa [Token.isEndOfFile] using heof
    rw [if_neg (by simp [Token.isSymbol, heof])] at hskip
    cases hskip

section Grammar

variable {σ : Type} [RenderSystem σ]

theorem shader_follows : Follows (shader (σ := σ)) := by
  refine .bind (.of_looksOnly declaredName_composed) fun name =>
    .bind (.of_composed (.build DeclarationChange.supportsShaders)) fun supported => ?_
  split
  · exact .of_composed (unsupportedShader_composed name)
  · exact .bind (.of_composed (shaderHeader_composed name)) fun _ =>
      blockBody_follows dialectBlock_composed ()

theorem declaration_follows (b : Unit) (t : Token) : Follows (declaration (σ := σ) b t) := by
  unfold declaration
  split
  · exact .bind (.of_composed materialHeader_composed) fun _ =>
      blockBody_follows materialLine_composed ()
  · exact shader_follows
  · exact .bind (.of_composed vertexFormatHeader_composed) fun _ =>
      blockBody_follows attributeBlock_composed ()
  · exact .bind (.of_composed textureHeader_composed) fun name =>
      .bind (blockBody_follows textureLine_composed ()) fun _ =>
      .of_composed (finishTexture_composed name)
  · exact .bind (.of_composed textureLayerHeader_composed) fun _ =>
      blockBody_follows layerLine_composed ()
  · exact .of_refuses (.unexpectedName t)

/-- The lines of a script. -/
theorem line_follows (b : Unit) (t : Token) : Follows (line (declaration (σ := σ)) b t) := by
  unfold line
  split
  · exact .bind (.of_looksOnly variableDefinition_composed) fun _ => .pure b
  · split
    · exact .bind discardedBlock_follows fun _ => .pure b
    · exact declaration_follows b t
  · exact .of_refuses (.unexpected t)

end Grammar

end Parser

end MaterialScript
