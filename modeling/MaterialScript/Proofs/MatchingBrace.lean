/-
The brace a skip ends on.

A skip goes to the next `{` and from there to the `}` with which the count of
braces is back at zero; neither may lie behind the end of the file
(`Cursor.BlockAhead`). `skipBlock_outcome`: where there is such a block, a skip
ends on its `}`, whatever else stands in it; where there is none it fails at the
first end of the file. No sequence is ruled out: brackets need not balance, and
the end of the file may stand anywhere in it.
-/
import MaterialScript.Proofs.Skips
import MaterialScript.Proofs.StringValues

namespace MaterialScript

open Braces

namespace Braces

/-- Either some `}` closes the block that is open, or it stays open throughout. -/
theorem close_or_open (ts : List Token) :
    (∃ inside close after, ts = inside ++ close :: after ∧ Balanced inside ∧
      close.isSymbol .rightBrace) ∨ ∀ p, p <+: ts → 0 ≤ net p := by
  by_cases hopen : ∀ p, p <+: ts → 0 ≤ net p
  · exact .inr hopen
  · obtain ⟨p, ⟨rest, rfl⟩, hneg⟩ : ∃ p, p <+: ts ∧ net p < 0 := by simpa using hopen
    obtain ⟨inside, close, after, rfl, hclose, hsane, hsettled⟩ := @exists_close p 0 (by omega)
    refine .inl ⟨inside, close, after ++ rest, by simp, ⟨?_, ?_⟩, hclose⟩
    · simpa using hsane
    · simpa using hsettled

end Braces

namespace Cursor

variable {c : Cursor} {before inside : List Token} {opening close last : Token}

/-- The next `{` and, with which the count of braces from that `{` on first comes back to zero, its
`}`. The end of the file comes before neither. -/
structure BlockAhead (c : Cursor) (before : List Token) (opening : Token) (inside : List Token)
    (close : Token) : Prop where
  ahead : before ++ opening :: (inside ++ [close]) <+: c.rest
  next : ∀ t ∈ before, t.isSymbol .leftBrace = false
  opens : opening.isSymbol .leftBrace
  staysOpen : ∀ p, p <+: inside → 0 < net (opening :: p)
  closes : net (opening :: (inside ++ [close])) = 0
  goesOn : ∀ t ∈ before ++ inside, t.isEndOfFile = false

/-- The first end of the file ahead; where nothing is ahead, the last token. -/
inductive EndsAt (c : Cursor) (last : Token) : Prop
  | ahead {front after : List Token} : c.rest = front ++ last :: after →
      (∀ t ∈ front, t.isEndOfFile = false) → last.isEndOfFile → EndsAt c last
  | reached : c.rest = [] → c.tokens.getLast? = some last → EndsAt c last

theorem BlockAhead.balanced (h : c.BlockAhead before opening inside close) : Balanced inside := by
  have hfrom := h.staysOpen
  have hclosed := h.closes
  have hopens := Token.depthChange_of_isSymbol_leftBrace h.opens
  refine ⟨fun p hp => ?_, ?_⟩
  · have := hfrom p hp
    rw [net_cons] at this
    omega
  · have hinside := hfrom inside (List.prefix_refl _)
    have hdrop : -1 ≤ close.depthChange := by
      unfold Token.depthChange
      split
      · decide
      · split <;> decide
    simp only [net_cons, net_append, net_nil] at hinside hclosed
    omega

/-- The token that brings the count back to zero is a `}`. -/
theorem BlockAhead.close_isSymbol (h : c.BlockAhead before opening inside close) :
    close.isSymbol .rightBrace := by
  have hclosed := h.closes
  simp only [net_cons, net_append, net_nil, h.balanced.settled,
    Token.depthChange_of_isSymbol_leftBrace h.opens] at hclosed
  unfold Token.depthChange at hclosed
  split at hclosed
  · omega
  · split at hclosed
    · assumption
    · omega

/-- A block that stands ahead in front of the end of the file. -/
theorem BlockAhead.of_balanced (hahead : before ++ opening :: (inside ++ [close]) <+: c.rest)
    (hnext : ∀ t ∈ before, t.isSymbol .leftBrace = false) (hopen : opening.isSymbol .leftBrace)
    (hinside : Balanced inside) (hclose : close.isSymbol .rightBrace)
    (hgoesOn : ∀ t ∈ before ++ inside, t.isEndOfFile = false) :
    c.BlockAhead before opening inside close where
  ahead := hahead
  next := hnext
  opens := hopen
  staysOpen p hp := by
    have := hinside.sane p hp
    rw [net_cons, Token.depthChange_of_isSymbol_leftBrace hopen]
    omega
  closes := by
    simp [hinside.settled, Token.depthChange_of_isSymbol_leftBrace hopen,
      Token.depthChange_of_isSymbol_rightBrace hclose]
  goesOn := hgoesOn

/-- The end of the file is ahead, or nothing is. -/
theorem end_cases (hends : Ends c.tokens) :
    (c.rest = [] ∧ ∃ last, c.tokens.getLast? = some last) ∨
      ∃ front last after, c.rest = front ++ last :: after ∧
        (∀ t ∈ front, t.isEndOfFile = false) ∧ last.isEndOfFile := by
  obtain ⟨before, last, htokens, hlast⟩ := hends
  have hgetLast : c.tokens.getLast? = some last := by simp [htokens]
  by_cases hrest : c.rest = []
  · exact .inl ⟨hrest, last, hgetLast⟩
  · rw [tokens, List.getLast?_append_of_ne_nil _ hrest] at hgetLast
    have hsome : (c.rest.find? Token.isEndOfFile).isSome :=
      List.find?_isSome.2 ⟨last, List.mem_of_getLast? hgetLast, hlast⟩
    obtain ⟨first, hfirst⟩ := Option.isSome_iff_exists.1 hsome
    obtain ⟨heof, front, after, hsplit, hfront⟩ := List.find?_eq_some_iff_append.1 hfirst
    exact .inr ⟨front, first, after, hsplit, by simpa using hfront, heof⟩

end Cursor

namespace Parser

variable {ρ α β : Type} {s : State ρ}

/-! ## Loops that reach the end of the file -/

/-- A loop that only looks at braces and finds nothing to stop at before the end of the file. -/
theorem Scans.fails {step : α → Token → Progress α β}
    (hneutral : ∀ a t, t.isBrace = false → step a t = .more a) {a a' : α} {ts after : List Token}
    {last : Token} (h : Scans step a ts a') (hrest : s.cursor.rest = ts ++ last :: after)
    (hgoesOn : ∀ t ∈ ts, t.isEndOfFile = false) (hlast : last.isEndOfFile) :
    ∃ u, (overTokens (fun a t => return step a t)
        (fun _ t => (failAt t .unexpectedEndOfInput : Parser ρ β)) a).run s =
        (.error (.placed last.position .unexpectedEndOfInput), u) ∧ u.cursor.current = last := by
  obtain ⟨u, hu, hrun⟩ := h.run hneutral hrest (by simp) hgoesOn
  obtain ⟨hcurrent, -⟩ := advance_of_rest (hu.rest_eq hrest)
    (Cursor.not_skipsWhen_of_isEndOfFile hlast)
  have hend : u.AtEnd := .inr (by rw [hcurrent]; exact hlast)
  refine ⟨u.advance true, ?_, hcurrent⟩
  rw [hrun, ← hcurrent]
  exact runOverTokens_atEnd hend

/-- Nothing is skipped where nothing is left. -/
theorem skipBlock_of_end {last : Token} (hends : Ends s.cursor.tokens) (hrest : s.cursor.rest = [])
    (hlast : s.cursor.tokens.getLast? = some last) :
    skipBlock.run s = (.error (.placed last.position .unexpectedEndOfInput), s) ∧
      s.cursor.current = last := by
  have hstay : s.advance true = s := by
    rcases Cursor.advance_cases hends true with ⟨between, hpasses, -⟩ | ⟨-, hstay, -⟩
    · simp [hpasses.rest] at hrest
    · rw [State.advance, hstay]
  have hpassed : s.cursor.passed.head? = some last := by simpa [Cursor.tokens, hrest] using hlast
  have hcurrent : s.cursor.current = last := by
    rw [Cursor.current, List.headD_eq_head?_getD, hpassed, Option.getD_some]
  have hseek : seekBrace.run s = (.error (.placed last.position .unexpectedEndOfInput), s) := by
    refine (runOverTokens_atEnd (.inl hrest)).trans ?_
    rw [hstay, hcurrent]
    rfl
  exact ⟨by rw [skipBlock, run_bind, hseek], hcurrent⟩

/-! ## Both outcomes -/

/-- Where a block is ahead, skipping goes to its `}`. -/
theorem skipBlock_of_blockAhead {before inside : List Token} {opening close : Token}
    (h : s.cursor.BlockAhead before opening inside close) :
    ∃ u, skipBlock.run s = (.ok (), u) ∧
      s.cursor.Passes (before ++ opening :: (inside ++ [close])) u.cursor ∧
      u.cursor.current = close := by
  obtain ⟨after, hrest⟩ := h.ahead
  have hsplit : s.cursor.rest = before ++ opening :: (inside ++ close :: after) := by simp [← hrest]
  obtain ⟨u, hrun, hu⟩ :=
    skipBlock_passes_within hsplit h.next h.opens h.balanced h.close_isSymbol h.goesOn
  rw [List.append_assoc, List.singleton_append] at hu
  exact ⟨u, hrun, hu, by simp [Cursor.current, hu.passed]⟩

/-- In front of the end of the file stands a block, or skipping fails there. -/
theorem skipBlock_cases {front after : List Token} {last : Token}
    (hrest : s.cursor.rest = front ++ last :: after)
    (hgoesOn : ∀ t ∈ front, t.isEndOfFile = false) (hlast : last.isEndOfFile) :
    (∃ before opening inside close, s.cursor.BlockAhead before opening inside close) ∨
      ∃ u, skipBlock.run s = (.error (.placed last.position .unexpectedEndOfInput), u) ∧
        u.cursor.current = last := by
  cases hfind : front.find? (·.isSymbol .leftBrace) with
  | none =>
    -- no `{` at all
    have hnone : ∀ t ∈ front, t.isSymbol .leftBrace = false := by simpa using hfind
    obtain ⟨u, hseek, hu⟩ : ∃ u, seekBrace.run s =
        (.error (.placed last.position .unexpectedEndOfInput), u) ∧ u.cursor.current = last :=
      (scans_openBrace hnone).fails openBrace_neutral hrest hgoesOn hlast
    exact .inr ⟨u, by rw [skipBlock, run_bind, hseek], hu⟩
  | some opening =>
    obtain ⟨hopen, before, behind, rfl, hnext⟩ := List.find?_eq_some_iff_append.1 hfind
    have hnext : ∀ t ∈ before, t.isSymbol .leftBrace = false := by simpa using hnext
    have hgoesOn' : ∀ t ∈ before ++ behind, t.isEndOfFile = false := fun t ht =>
      hgoesOn t (by
        rcases List.mem_append.1 ht with ht | ht
        · exact List.mem_append_left _ ht
        · exact List.mem_append_right _ (List.mem_cons_of_mem _ ht))
    rcases close_or_open behind with ⟨inside, close, left, rfl, hinside, hclose⟩ | hsane
    · refine .inl ⟨before, opening, inside, close, .of_balanced
        ⟨left ++ last :: after, by simp [hrest]⟩ hnext hopen hinside hclose
        fun t ht => hgoesOn' t ?_⟩
      rcases List.mem_append.1 ht with ht | ht
      · exact List.mem_append_left _ ht
      · exact List.mem_append_right _ (List.mem_append_left _ ht)
    · -- the `{` is never closed
      have hsplit : s.cursor.rest = before ++ opening :: (behind ++ last :: after) := by
        simp [hrest]
      obtain ⟨v, hseek, hv⟩ := seekBrace_passes hsplit hnext hopen fun t ht =>
        hgoesOn' t (List.mem_append_left _ ht)
      obtain ⟨depth, hscans, -⟩ := scans_closeBrace 0 fun p hp => by simpa using hsane p hp
      obtain ⟨u, hskip, hu⟩ := hscans.fails closeBrace_neutral (hv.rest_eq (by simpa using hsplit))
        (fun t ht => hgoesOn' t (List.mem_append_right _ ht)) hlast
      exact .inr ⟨u, by rw [skipBlock, run_bind, hseek]; exact hskip, hu⟩

/-- Without a block ahead, skipping fails at the end of the file. -/
theorem skipBlock_of_not_blockAhead (hends : Ends s.cursor.tokens)
    (h : ¬ ∃ before opening inside close, s.cursor.BlockAhead before opening inside close) :
    ∃ last u, s.cursor.EndsAt last ∧
      skipBlock.run s = (.error (.placed last.position .unexpectedEndOfInput), u) ∧
      u.cursor.current = last := by
  rcases Cursor.end_cases hends with
    ⟨hrest, last, hlast⟩ | ⟨front, last, after, hrest, hfront, hlast⟩
  · obtain ⟨hrun, hcurrent⟩ := skipBlock_of_end hends hrest hlast
    exact ⟨last, s, .reached hrest hlast, hrun, hcurrent⟩
  · obtain ⟨u, hrun, hu⟩ := (skipBlock_cases hrest hfront hlast).resolve_left h
    exact ⟨last, u, .ahead hrest hfront hlast, hrun, hu⟩

/-! ## The count -/

/-- A loop over tokens, started with `a` in `s`, comes to go on with `a'` in `u`. -/
inductive Rounds (body : α → Token → Parser ρ (Progress α β)) : α → State ρ → α → State ρ → Prop
  | none {a : α} {s : State ρ} : Rounds body a s a s
  | more {a a' a'' : α} {s u v : State ρ} : ¬ s.AtEnd →
      (body a (s.advance true).cursor.current).run (s.advance true) = (.ok (.more a'), u) →
      Rounds body a' u a'' v → Rounds body a s a'' v

/-- A loop goes on from where its rounds have come to. -/
theorem Rounds.run_eq {body : α → Token → Parser ρ (Progress α β)} {finish : α → Token → Parser ρ β}
    {a a' : α} {u : State ρ} (h : Rounds body a s a' u) :
    (overTokens body finish a).run s = (overTokens body finish a').run u := by
  induction h with
  | none => rfl
  | more hend hbody _ ih => exact (runOverTokens_more hend hbody).trans ih

/-- The count goes up and down with the braces passed, and never below where a block would have to
be closed that is not open. -/
theorem Rounds.closeBrace_eq {n depth : Nat} {v : State ρ} (hends : Ends s.cursor.tokens)
    (h : Rounds (fun depth t => return closeBrace depth t) n s depth v) :
    ∃ ts, s.cursor.Passes ts v.cursor ∧ (depth : Int) = n + net ts ∧
      ∀ p, p <+: ts → 0 ≤ (n : Int) + net p := by
  induction h with
  | none => exact ⟨[], .refl _, by simp, fun p hp => by simp [List.prefix_nil.1 hp]⟩
  | @more n n' depth s u v hend hround _ ih =>
    obtain ⟨ts, hts, hseen, -⟩ := Reads.step_of_not_atEnd hends hend
    obtain ⟨hstep, rfl⟩ : closeBrace n (s.advance true).cursor.current = .more n' ∧
        s.advance true = u := by simpa using hround
    have hnext : (n' : Int) = n + net ts := by
      rcases closeBrace_cases n (s.advance true).cursor.current with ⟨m, hmore, hm⟩ | ⟨hdone, -⟩
      · obtain rfl : m = n' := by simpa using hmore.symm.trans hstep
        rw [hm, ← net_visible s.cursor.lineBreaksCount, hseen, net_cons, net_nil, Int.add_zero]
      · cases hdone.symm.trans hstep
    obtain ⟨us, hus, hdepth, hsane⟩ := ih (hts.ends hends)
    refine ⟨ts ++ us, hts.trans hus, by rw [net_append]; omega, fun p hp => ?_⟩
    rcases prefix_append_cases hp with hp | ⟨q, hq, rfl⟩
    · -- of the tokens of one round only the last is not whitespace
      have hvisible : visible s.cursor.lineBreaksCount p <+: [(s.advance true).cursor.current] :=
        hseen ▸ hp.filter _
      rw [← net_visible s.cursor.lineBreaksCount]
      rcases List.prefix_cons_iff.1 hvisible with hnil | ⟨q, hq, hnil⟩
      · simp [hnil]
      · rw [hq, List.prefix_nil.1 hnil, ← hseen, net_visible]
        omega
    · have := hsane q hq
      rw [net_append]
      omega

theorem seekBrace_endsOn : EndsOn (seekBrace : Parser ρ Unit) fun _ c => c.isSymbol .leftBrace := by
  refine .overTokens (fun _ s _ u hrun => ?_) (fun _ t => .of_refuses (.failAt t _)) ()
  split at hrun
  · rename_i hopen
    cases hrun
    exact hopen
  · cases hrun

/-- **A skip ends on the brace that matches the next `{`.** Wherever a cursor stands in whatever
sequence, and whether line breaks count or not:
- a skip succeeds exactly where a block is ahead: a `{` in front of the end of the file and, in
  front of it too, the `}` that brings the count of braces from that `{` on back to zero;
- it passes the tokens up to that `}` and ends on it;
- where no block is ahead it fails at the first end of the file, or at the last token if nothing is
  left;
- while it counts, the blocks open inside that of the `{` are one less than the count of braces from
  the `{` on, which is never below one. -/
theorem skipBlock_outcome (tokens : List Token) (n : Nat) (breaks : Bool) (vars : Variables)
    (journal : Journal) (scene : ρ) :
    let s : State ρ := ⟨.after tokens n breaks, vars, journal, scene⟩
    ((∃ u, skipBlock.run s = (.ok (), u)) ↔
      ∃ before opening inside close, s.cursor.BlockAhead before opening inside close) ∧
    (∀ before opening inside close, s.cursor.BlockAhead before opening inside close →
      ∃ u, skipBlock.run s = (.ok (), u) ∧
        s.cursor.Passes (before ++ opening :: (inside ++ [close])) u.cursor ∧
        u.cursor.current = close ∧ close.isSymbol .rightBrace) ∧
    ((¬ ∃ before opening inside close, s.cursor.BlockAhead before opening inside close) →
      ∃ last u, s.cursor.EndsAt last ∧
        skipBlock.run s = (.error (.placed last.position .unexpectedEndOfInput), u) ∧
        u.cursor.current = last) ∧
    ∀ w depth v, seekBrace.run s = (.ok (), w) →
      Rounds (fun depth t => return closeBrace depth t) 0 w depth v →
      skipBlock.run s = (skipOut depth).run v ∧ w.cursor.current.isSymbol .leftBrace ∧
        ∃ ts, w.cursor.Passes ts v.cursor ∧ (depth : Int) + 1 = net (w.cursor.current :: ts) ∧
          ∀ p, p <+: ts → 0 < net (w.cursor.current :: p) := by
  intro s
  have hends : Ends s.cursor.tokens := Cursor.ends_within tokens n
  have hfails := skipBlock_of_not_blockAhead hends
  refine ⟨⟨fun ⟨u, hrun⟩ => ?_, ?_⟩, ?_, hfails, ?_⟩
  · by_contra hnone
    obtain ⟨last, v, -, herror, -⟩ := hfails hnone
    rw [hrun] at herror
    cases herror
  · rintro ⟨before, opening, inside, close, h⟩
    obtain ⟨u, hrun, -⟩ := skipBlock_of_blockAhead h
    exact ⟨u, hrun⟩
  · intro before opening inside close h
    obtain ⟨u, hrun, hu, hcurrent⟩ := skipBlock_of_blockAhead h
    exact ⟨u, hrun, hu, hcurrent, h.close_isSymbol⟩
  · intro w depth v hseek hrounds
    have hopen := seekBrace_endsOn hseek
    have hw : Ends w.cursor.tokens := (onward_of_run hseek).ends hends
    obtain ⟨ts, hts, hdepth, hsane⟩ := hrounds.closeBrace_eq hw
    have hone := Token.depthChange_of_isSymbol_leftBrace hopen
    have hrun : skipBlock.run s = (skipOut depth).run v := by
      rw [skipBlock, run_bind, hseek]
      exact hrounds.run_eq
    refine ⟨hrun, hopen, ts, hts, ?_, fun p hp => ?_⟩
    · rw [net_cons]
      omega
    · have := hsane p hp
      rw [net_cons]
      omega

/-- Brackets of other kinds need not balance, and nothing counts that stands in front of the `{` or
behind its `}`. -/
theorem skipBlock_outcome_stray_brackets :
    let symbol (s : Symbol) : Token := .bare (.symbol s) .start
    let close : Token := .bare (.symbol .rightBrace) ⟨2, 1⟩
    let inside := [symbol .leftParen, symbol .leftBrace, symbol .rightBracket, symbol .rightBrace,
      .bare .newline .start]
    let after := [symbol .rightParen, .bare .endOfFile .start, symbol .leftBrace,
      .bare .endOfFile .start]
    let tokens := symbol .rightBrace :: symbol .leftBrace :: (inside ++ close :: after)
    let s : State Unit := ⟨.after tokens 0 true, .empty, [], ()⟩
    ∃ u, skipBlock.run s = (.ok (), u) ∧ u.cursor.rest = after ∧ u.cursor.current = close := by
  intro symbol close inside after tokens s
  have plain : ∀ t : Token, t.isBrace = false → Balanced [t] := fun t ht =>
    (Plain.singleton ht).balanced
  have hnested : Balanced [symbol .leftBrace, symbol .rightBracket, symbol .rightBrace] :=
    (plain (symbol .rightBracket) rfl).wrap rfl rfl
  have hinside : Balanced inside :=
    (plain (symbol .leftParen) rfl).append (hnested.append (plain (.bare .newline .start) rfl))
  have hblock : s.cursor.BlockAhead [symbol .rightBrace] (symbol .leftBrace) inside close :=
    .of_balanced ⟨after, rfl⟩ (by decide) rfl hinside rfl (by decide)
  obtain ⟨-, hskip, -, -⟩ := skipBlock_outcome tokens 0 true .empty [] ()
  obtain ⟨u, hrun, hu, hcurrent, -⟩ := hskip _ _ _ _ hblock
  exact ⟨u, hrun, hu.rest_eq rfl, hcurrent⟩

end Parser

end MaterialScript
