/-
Loading a script after its front.

Where the front of a script is whole lines that load by themselves, a load of
the whole comes to where the front ends with just what the load of the front
has left, and goes on from there (`readTokens_append`). What follows cannot
take back what the front has built: from there on entries and notices are only
added.
-/
import MaterialScript.Proofs.Growth
import MaterialScript.Proofs.History
import MaterialScript.Proofs.Lockstep

namespace MaterialScript

/-- Tokens up to the end of a line, without the end of the file. -/
structure WholeLines (ts : List Token) : Prop where
  goesOn : ∀ t ∈ ts, t.isEndOfFile = false
  lineBreak : ∃ front last, ts = front ++ [last] ∧ last.kind = .newline

namespace Cursor

theorem closed_of_goesOn {ts : List Token} (h : ∀ t ∈ ts, t.isEndOfFile = false) :
    ∃ e, e.isEndOfFile ∧ closed ts = ts ++ [e] := by
  unfold closed
  split
  · rename_i hlast
    rw [List.getLast?_eq_none_iff.1 hlast]
    exact ⟨_, rfl, rfl⟩
  · rename_i t hlast
    rw [if_neg (by simp [h t (List.mem_of_getLast? hlast)])]
    exact ⟨_, rfl, rfl⟩

/-- Whatever follows, the end of the file is still to come. -/
theorem closed_append {ts : List Token} (h : ∀ t ∈ ts, t.isEndOfFile = false) (us : List Token) :
    ∃ more, more ≠ [] ∧ closed (ts ++ us) = ts ++ more := by
  by_cases hus : us = []
  · obtain ⟨e, -, he⟩ := closed_of_goesOn h
    refine ⟨[e], by simp, ?_⟩
    rw [hus, List.append_nil]
    exact he
  · unfold closed
    split
    · rename_i hlast
      exact absurd (List.append_eq_nil_iff.1 (List.getLast?_eq_none_iff.1 hlast)).2 hus
    · split
      · exact ⟨us, hus, rfl⟩
      · exact ⟨us ++ [_], by simp, by rw [List.append_assoc]⟩

end Cursor

namespace Parser

section Lines

variable {σ : Type} {ts : List Token} {e : Token} {s u : State (Scene σ)}

theorem endsOnce_of_wholeLines (hts : WholeLines ts) (he : e.isEndOfFile)
    (htokens : s.cursor.tokens = ts ++ [e]) : EndsOnce s.cursor.tokens :=
  ⟨ts, e, htokens, he, hts.goesOn⟩

/-- Two tokens at the end that are not the one before a stretch are in it. -/
theorem exists_eq_append_pair {before front us : List Token} {t x y : Token}
    (h : before ++ t :: us = front ++ [x, y]) (hx : t ≠ x) (hy : t ≠ y) :
    ∃ us', us = us' ++ [x, y] := by
  rcases List.append_eq_append_iff.1 h with ⟨mid, hfront, hus⟩ | ⟨mid, -, hpair⟩
  · cases mid with
    | nil =>
      rw [List.nil_append, List.cons_eq_cons] at hus
      exact absurd hus.1 hx
    | cons m mid =>
      rw [List.cons_append, List.cons_eq_cons] at hus
      exact ⟨mid, hus.2⟩
  · -- the stretch would start inside the pair
    rcases mid with _ | ⟨m, _ | ⟨m', mid⟩⟩
    · rw [List.nil_append, List.cons_eq_cons] at hpair
      exact absurd hpair.1.symm hx
    · rw [List.cons_append, List.cons_eq_cons, List.nil_append, List.cons_eq_cons] at hpair
      exact absurd hpair.2.1.symm hy
    · simp at hpair

/-- The line break that ends a definition is not passed along with the end of the file. -/
theorem variableDefinition_rest (hts : WholeLines ts) (he : e.isEndOfFile)
    (htokens : s.cursor.tokens = ts ++ [e]) (hat : s.cursor.current.kind = .symbol .atSign)
    (hrun : variableDefinition.run s = (.ok (), u)) : u.cursor.rest ≠ [] := by
  intro hnil
  obtain ⟨⟨answer, w⟩, hdefinition⟩ : ∃ x, definitionLine.run (s.setLineBreaks true) = x := ⟨_, rfl⟩
  simp only [variableDefinition, withLineBreaks, hdefinition] at hrun
  cases hrun
  obtain ⟨us, hus, hline⟩ := definitionLine_reads (m := true) (s := s.setLineBreaks true)
    (endsOnce_of_wholeLines hts he htokens).ends rfl hdefinition
  have hrest : s.cursor.rest = us := by
    have hrest : s.cursor.rest = us ++ w.cursor.rest := hus.rest
    have hnil : w.cursor.rest = [] := hnil
    rw [hrest, hnil, List.append_nil]
  obtain ⟨before, hpassed⟩ := Cursor.exists_passed (c := s.cursor) (by simp [hat])
  obtain ⟨front, last, rfl, hlast⟩ := hts.lineBreak
  rw [Cursor.tokens, hpassed, hrest, List.reverse_cons, List.append_assoc, List.append_assoc]
    at htokens
  obtain ⟨us', rfl⟩ := exists_eq_append_pair htokens
    (fun heq => by rw [heq, hlast] at hat; cases hat)
    (fun heq => by rw [← heq] at he; simp [Token.isEndOfFile, hat] at he)
  have hseen : visible true (us' ++ [last, e]) = visible true us' ++ [last, e] := by
    rw [List.append_cons, visible_append, visible_append,
      visible_singleton (by simp [Cursor.skipsWhen, hlast]),
      visible_singleton (Cursor.not_skipsWhen_of_isEndOfFile he), ← List.append_cons]
  rw [hseen] at hline
  rcases hline.of_append with hline | hline
  · simp [Token.endsLine, hlast] at hline
  · rw [Token.endsLine, Bool.or_eq_false_iff] at hline
    exact absurd he (by simpa [Token.isEndOfFile] using hline.2)

variable [RenderSystem σ]

/-- No line of a script of whole lines passes the end of the file. -/
theorem line_rest (hts : WholeLines ts) (he : e.isEndOfFile)
    (htokens : s.cursor.tokens = ts ++ [e]) {b b' : Unit}
    (hrun : (line declaration b s.cursor.current).run s = (.ok b', u)) : u.cursor.rest ≠ [] := by
  have hends := (onward_of_run hrun).ends (endsOnce_of_wholeLines hts he htokens).ends
  have closed : u.cursor.current.isSymbol .rightBrace → u.cursor.rest ≠ [] := by
    intro hclose hnil
    have heof := Cursor.current_of_rest_nil hends hnil
    have hkind : u.cursor.current.kind = .symbol .rightBrace := by
      simpa [Token.isSymbol] using hclose
    simp [Token.isEndOfFile, hkind] at heof
  unfold line at hrun
  split at hrun
  · rename_i hat
    obtain ⟨_, w, hdefinition, hrun⟩ := run_bind_eq_ok hrun
    cases hrun
    exact variableDefinition_rest hts he htokens hat hdefinition
  · split at hrun
    · obtain ⟨_, w, hdiscard, hrun⟩ := run_bind_eq_ok hrun
      cases hrun
      exact closed (discardedBlock_endsOn hdiscard)
    · exact closed (declaration_endsOn _ _ hrun)
  · cases hrun

end Lines

section Runs

variable {ρ α β : Type} {more : List Token}

/-- All that is left before the end of the file is whitespace. -/
theorem State.AtEnd.skips {s : State ρ} (hend : s.AtEnd) (hends : EndsOnce s.cursor.tokens)
    {ts : List Token} {e : Token} (hrest : s.cursor.rest = ts ++ [e]) :
    ∀ t ∈ ts, s.cursor.skips t := by
  rcases Cursor.advance_cases hends.ends true with ⟨between, hpasses, hbetween, -⟩ | ⟨hnil, -⟩
  · have heof : (s.cursor.advance true).current.isEndOfFile :=
      hend.resolve_left (by simp [hrest])
    have hnil := Cursor.rest_of_isEndOfFile (hpasses.endsOnce hends) heof
    have heq := hpasses.rest
    rw [hnil, hrest, List.append_nil] at heq
    obtain ⟨rfl, -⟩ := List.append_inj' heq rfl
    exact fun t ht => by simpa [Cursor.skipped] using hbetween t ht
  · simp [hrest] at hnil

/-- Whitespace before what is left makes no difference to a loop. -/
theorem runOverTokens_skips {body : α → Token → Parser ρ (Progress α β)}
    {finish : α → Token → Parser ρ β} {a : α} (hmore : more ≠ []) (ts : List Token) (s : State ρ)
    (hskip : ∀ t ∈ ts, s.cursor.skips t) :
    runOverTokens body finish a { s with cursor := { s.cursor with rest := ts ++ more } } =
      runOverTokens body finish a { s with cursor :=
        ⟨ts.reverse ++ s.cursor.passed, more, s.cursor.lineBreaksCount⟩ } := by
  induction ts generalizing s with
  | nil => rfl
  | cons t ts ih =>
    have hnext := ih { s with cursor := { s.cursor with passed := t :: s.cursor.passed } }
      fun u hu => hskip u (List.mem_cons_of_mem t hu)
    rw [List.reverse_cons, List.append_assoc, List.singleton_append, ← hnext]
    exact runOverTokens_skip rfl (by simp [hmore]) (hskip t (by simp))

variable {σ : Type} [RenderSystem σ] {ts : List Token} {e : Token}

/-- A script that is read to its end leaves off where a longer one goes on. -/
theorem script_run_append (hts : WholeLines ts) (he : e.isEndOfFile) (hmore : more ≠ [])
    {s t u : State (Scene σ)} (htokens : s.cursor.tokens = ts ++ [e])
    (hbreaks : s.cursor.lineBreaksCount = false) (hst : s.Cut more t)
    (hrun : script.run s = (.ok (), u)) :
    script.run t = script.run { u with cursor := ⟨ts.reverse, more, false⟩ } := by
  suffices key : s.cursor.tokens = ts ++ [e] → s.cursor.lineBreaksCount = false →
      ∀ t, s.Cut more t →
        script.run t = script.run { u with cursor := ⟨ts.reverse, more, false⟩ } from
    key htokens hbreaks t hst
  refine lines_induction
    (motive := fun _ s => s.cursor.tokens = ts ++ [e] → s.cursor.lineBreaksCount = false →
      ∀ t, s.Cut more t →
        script.run t = script.run { u with cursor := ⟨ts.reverse, more, false⟩ })
    (fun _ s hclose _ hu htokens hbreaks t hst => ?_)
    (fun b s b' w hend hopen hline ih htokens hbreaks t hst => ?_) hrun
  · have hend : s.AtEnd := .inr (by simp [Token.isEndOfFile, hclose])
    obtain ⟨left, e', -, hrest, rfl⟩ := hst
    have hskip := hend.skips (endsOnce_of_wholeLines hts he htokens) hrest
    rw [Cursor.tokens, hrest, ← List.append_assoc] at htokens
    obtain ⟨hpassed, -⟩ := List.append_inj' htokens rfl
    have hreverse : ts.reverse = left.reverse ++ s.cursor.passed := by
      rw [← hpassed, List.reverse_append, List.reverse_reverse]
    rw [hu, hreverse, ← hbreaks]
    exact runOverTokens_skips hmore left s hskip
  · rcases hst.advance true with hstep | ⟨-, heof, -⟩
    · have hend' := (not_congr (hst.atEnd_iff hstep)).1 hend
      have hw := onward_of_run hline
      have hs := s.advance_onward true
      have htokens' : (s.advance true).cursor.tokens = ts ++ [e] :=
        hs.leads.tokens_eq.trans htokens
      rcases line_follows b _ (endsOnce_of_wholeLines hts he htokens').ends hbreaks hstep hline
        with
        ⟨v, hv, hwv⟩ | hnil
      · rw [← hstep.current] at hopen hv
        exact (lines_line hend' hopen hv).trans
          (ih (hw.leads.tokens_eq.trans htokens') (hw.lineBreaks.trans hbreaks) v hwv)
      · exact absurd hnil (line_rest hts he htokens' hline)
    · exact absurd (.inr heof) hend

end Runs

end Parser

/-! ## Loads -/

namespace Loader

/-- A script may go on in `s` after the tokens `ts`, before `us`, with what a load of `ts` has
left. -/
structure LeavesOff (first : Loader Recorder) (ts us : List Token)
    (s : Parser.State (Scene Recorder)) : Prop where
  passed : s.cursor.passed = ts.reverse
  tokens : s.cursor.tokens = Cursor.closed (ts ++ us)
  lineBreaks : s.cursor.lineBreaksCount = false
  bindings : s.bindings.Agrees first.bindings
  resources : s.scene.toResources = first.resources
  drafts : s.scene.drafts = first.drafts
  system : s.scene.system.Alike first.system

section Readings

variable {σ : Type} [RenderSystem σ] (l : Loader σ) (s : Parser.State (Scene σ))

theorem readFrom_extends : s.scene.toResources.Extends (l.readFrom s).2.resources := by
  have hgrows := Parser.script_grows s
  unfold readFrom
  split
  · rename_i e u hrun
    rw [hrun] at hgrows
    exact hgrows
  · rename_i u hrun
    rw [hrun] at hgrows
    exact hgrows

theorem readFrom_journal : s.journal <+: (l.readFrom s).2.journal := by
  unfold readFrom
  split
  · rename_i e u hrun
    exact (Parser.onward_of_run hrun).journal
  · rename_i u hrun
    exact (Parser.onward_of_run hrun).journal.trans (List.prefix_append _ _)

/-- Where the front of a script loads by itself, reading the whole goes on after it. -/
theorem readOn_append {l l' : Loader σ} {files : Files} {ts us : List Token} (hts : WholeLines ts)
    (hfirst : l.readOn files ts = (.ok (), l')) (hcheck : Brackets.check (ts ++ us) = .ok ()) :
    ∃ s more, Cursor.closed (ts ++ us) = ts ++ more ∧ s.cursor = ⟨ts.reverse, more, false⟩ ∧
      l' = (l.absorb s).note (summary s.scene.toResources) ∧
      l.readOn files (ts ++ us) = l.readFrom s := by
  obtain ⟨hsomething, -, u, hrun, hafter⟩ := readOn_eq_ok hfirst
  obtain ⟨e, he, hclosed⟩ := Cursor.closed_of_goesOn hts.goesOn
  obtain ⟨more, hmore, hclosed'⟩ := Cursor.closed_append hts.goesOn us
  refine ⟨{ u with cursor := ⟨ts.reverse, more, false⟩ }, more, hclosed', rfl, hafter, ?_⟩
  have hcut : (l.start files ts).Cut more (l.start files (ts ++ us)) := by
    refine ⟨ts, e, he, hclosed, ?_⟩
    simp only [start, Cursor.ofTokens, hclosed']
  have happend :=
    Parser.script_run_append hts he hmore (s := l.start files ts) hclosed rfl hcut hrun
  have hsomething' : declaresNothing (ts ++ us) = false := by
    rw [declaresNothing, List.all_append]
    rw [declaresNothing] at hsomething
    rw [hsomething, Bool.false_and]
  rw [readOn, hsomething', hcheck]
  simp only [readFrom, happend]
  rfl

end Readings

/-- **Loading a script after its front goes on from what the front has left.** If whole lines load
by themselves, and they and what follows have their brackets balanced, then a load of both, by a
loader that is set up alike, whether it succeeds or fails,
- leaves in every catalog first the entries the lines alone have left, with their values,
- notes first what was noted of the lines alone, the closing summary left out, and
- reads what follows from the variables, drafts and resources the lines alone have left. -/
theorem readTokens_append {l m : Loader Recorder} (h : l.SetUpAlike m) {files : Files}
    {ts us : List Token} (hts : WholeLines ts) (hfirst : (l.readTokens files ts).1 = .ok ())
    (hcheck : Brackets.check (ts ++ us) = .ok ()) :
    (l.readTokens files ts).2.resources.Extends (m.readTokens files (ts ++ us)).2.resources ∧
      ∃ told, (l.readTokens files ts).2.journal =
          told ++ summary (l.readTokens files ts).2.resources ∧
        told <+: (m.readTokens files (ts ++ us)).2.journal ∧
        ∃ s, (l.readTokens files ts).2.LeavesOff ts us s ∧ s.journal = told ∧
          m.readTokens files (ts ++ us) = m.begin.readFrom s := by
  obtain ⟨hanswer, halike⟩ := h.begin.readOn files ts
  obtain ⟨s, more, hclosed, hcursor, hafter, happend⟩ := readOn_append (l := m.begin) hts
    (Prod.ext (hanswer.symm.trans hfirst) rfl) hcheck
  have hafter : (m.begin.readOn files ts).2 =
      (m.begin.absorb s).note (summary s.scene.toResources) := hafter
  rw [hafter] at halike
  have hresources : (l.readTokens files ts).2.resources = s.scene.toResources := halike.resources
  have hjournal : (l.readTokens files ts).2.journal = s.journal ++ summary s.scene.toResources :=
    halike.journal
  have hwhole : m.readTokens files (ts ++ us) = m.begin.readFrom s := happend
  rw [hwhole, hresources]
  refine ⟨m.begin.readFrom_extends s, s.journal, hjournal, m.begin.readFrom_journal s, s, ?_, rfl,
    rfl⟩
  exact {
    passed := by rw [hcursor]
    tokens := by rw [hcursor, hclosed, Cursor.tokens, List.reverse_reverse]
    lineBreaks := by rw [hcursor]
    bindings := fun name => (halike.bindings name).symm
    resources := hresources.symm
    drafts := halike.drafts.symm
    system := halike.system.symm }

/-- A texture that cannot be loaded ends the load of a whole whose front has made a material. -/
theorem readTokens_append_broken_texture :
    let files : Files := fun _ => .error .notFound
    let system := { Recorder.default with missing := ["stone.png"] }
    let one := Loader.new system "/data"
    let other := Loader.new { system with materials := 3 } "/data"
    let token : TokenKind → String → Token := fun kind text => ⟨kind, text, .start⟩
    let front := [token (.symbol .atSign) "", token .name "image", token (.symbol .equal) "",
      token .string "stone.png", token .newline "", token .name "material", token .string "m",
      token (.symbol .leftBrace) "", token .name "lighting", token .name "false",
      token (.symbol .rightBrace) "", token .newline ""]
    let texture := [token .name "texture", token .string "t", token (.symbol .leftBrace) "",
      token .name "imageFile", token (.symbol .atSign) "", token .name "image",
      token (.symbol .rightBrace) ""]
    (other.readTokens files (front ++ texture)).1 ≠ .ok () ∧
      (one.readTokens files front).2.resources.names .material = ["m"] ∧
      (one.readTokens files front).2.resources.Extends
        (other.readTokens files (front ++ texture)).2.resources ∧
      ∃ told, (one.readTokens files front).2.journal =
          told ++ summary (one.readTokens files front).2.resources ∧
        told <+: (other.readTokens files (front ++ texture)).2.journal ∧
        ∃ s, (one.readTokens files front).2.LeavesOff front texture s ∧ s.journal = told ∧
          other.readTokens files (front ++ texture) = other.begin.readFrom s := by
  intro files system one other token front texture
  have alike : one.SetUpAlike other := ⟨⟨rfl, rfl, fun _ => Iff.rfl⟩, rfl, fun _ => rfl⟩
  have lines : WholeLines front := ⟨by decide, front.dropLast, token .newline "", rfl, rfl⟩
  exact ⟨by decide +kernel, by decide +kernel,
    readTokens_append alike lines (by decide +kernel) (by decide +kernel)⟩

end Loader

end MaterialScript
