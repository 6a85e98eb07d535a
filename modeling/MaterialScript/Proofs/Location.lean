/-
Where the errors of a load are.

An error of a load has the row and the column of a place in the script, told
from the text before it. What stands there is what the error is about
(`Loader.FailsAt`): a text that cannot be scanned, a bracket out of balance, or
the token where reading stops. Only a script that declares nothing fails nowhere
(`readSource_located`).
-/
import MaterialScript.Loader
import MaterialScript.Proofs.Blame
import MaterialScript.Proofs.Partition
import MaterialScript.RenderSystem.Recorder

namespace MaterialScript

/-! ## Where tokens start -/

/-- After the text `before` of a script, the token `t` starts at the front of the rest. At the end
of the text that is the end of the file. -/
inductive StartsAt (before : List Char) : List Char → Token → Prop
  | piece {p : Piece} {more : List Char} {t : Token} :
      Stands p more → p.tokens (.ofPrefix before) = [t] → StartsAt before (p.source ++ more) t
  | endOfFile : StartsAt before [] (.bare .endOfFile (.ofPrefix before))

theorem StartsAt.position {before rest : List Char} {t : Token} (h : StartsAt before rest t) :
    t.position = .ofPrefix before := by
  cases h with
  | @piece p _ _ _ htokens =>
    cases p with
    | gap source => cases htokens
    | lexeme source kind text =>
      cases htokens
      rfl
  | endOfFile => rfl

/-- Every token of pieces in a row starts somewhere in their text. -/
theorem Fit.startsAt {ps : List Piece} (h : Fit ps []) {before : List Char} {t : Token}
    (ht : t ∈ tokensOf before ps) :
    ∃ passed rest, sources ps = passed ++ rest ∧ StartsAt (before ++ passed) rest t := by
  induction ps generalizing before with
  | nil =>
    obtain rfl := List.mem_singleton.1 ht
    exact ⟨[], [], rfl, by simpa using @StartsAt.endOfFile before⟩
  | cons p ps ih =>
    rcases List.mem_append.1 ht with hp | hps
    · refine ⟨[], sources (p :: ps), rfl, ?_⟩
      have hstands : Stands p (sources ps) := by simpa using h.1
      rw [List.append_nil]
      refine .piece hstands ?_
      cases p with
      | gap source => cases hp
      | lexeme source kind text =>
        obtain rfl := List.mem_singleton.1 hp
        rfl
    · obtain ⟨passed, rest, hsources, hstarts⟩ := ih h.2 hps
      refine ⟨p.source ++ passed, rest, by simp [hsources], ?_⟩
      rw [← List.append_assoc]
      exact hstarts

namespace Source

theorem tokens_startsAt {source : String} {ts : List Token} (h : tokens source = .ok ts)
    {t : Token} (ht : t ∈ ts) :
    ∃ before rest, source.toList = before ++ rest ∧ StartsAt before rest t := by
  obtain ⟨ps, hsource, hfit, rfl⟩ := tokens_eq_ok_iff.1 h
  obtain ⟨before, rest, hsources, hstarts⟩ := hfit.startsAt ht
  exact ⟨before, rest, hsource.trans hsources, hstarts⟩

/-- A text that cannot be scanned is refused where what is to blame stands. -/
theorem tokens_eq_error {source : String} {e : ScriptError} (h : tokens source = .error e) :
    ∃ before rest fault, source.toList = before ++ rest ∧ Blames fault rest ∧
      e = .placed (.ofPrefix before) fault := by
  rcases tokensFrom_cases [] source.toList with
    ⟨ps, hsource, hfit⟩ | ⟨ps, c, rest, fault, hsource, -, hcut, herror⟩
  · rw [tokens_eq_ok_iff.2 ⟨ps, hsource, hfit, rfl⟩] at h
    cases h
  · rw [tokens] at h
    cases herror.symm.trans h
    exact ⟨sources ps, c :: rest, fault, hsource, blames_of_cut hcut, rfl⟩

end Source

/-! ## What errors are about -/

namespace Brackets

/-- The bracket blamed is one of those still open, or one of the tokens to come. -/
theorem checkAfter_eq_error {stack : List (Token × Symbol)} {ts : List Token} {e : ScriptError}
    (h : checkAfter stack ts = .error e) :
    ∃ t s, ((t, s) ∈ stack ∨ t ∈ ts ∧ symbol? t = some s) ∧ e = unbalanced t s := by
  -- a token passed takes no part, or is closed
  have later : ∀ {stack stack' : List (Token × Symbol)} {u : Token} {ts : List Token},
      (∀ b ∈ stack', b ∈ stack ∨ b.1 = u ∧ symbol? u = some b.2) →
      (∃ t s, ((t, s) ∈ stack' ∨ t ∈ ts ∧ symbol? t = some s) ∧ e = unbalanced t s) →
      ∃ t s, ((t, s) ∈ stack ∨ t ∈ u :: ts ∧ symbol? t = some s) ∧ e = unbalanced t s := by
    rintro stack stack' u ts hstack ⟨t, s, ht | ⟨ht, hs⟩, rfl⟩
    · refine ⟨t, s, (hstack _ ht).imp_right ?_, rfl⟩
      rintro ⟨rfl, hs⟩
      exact ⟨List.mem_cons_self .., hs⟩
    · exact ⟨t, s, .inr ⟨List.mem_cons_of_mem _ ht, hs⟩, rfl⟩
  fun_induction checkAfter stack ts with
  | case1 => cases h
  | case2 t s stack =>
    cases h
    exact ⟨t, s, .inl (List.mem_cons_self ..), rfl⟩
  | case3 stack t ts _ ih => exact later (fun _ => .inl) (ih h)
  | case4 stack t ts s hs _ ih =>
    refine later (fun b hb => ?_) (ih h)
    rcases List.mem_cons.1 hb with rfl | hb
    · exact .inr ⟨rfl, hs⟩
    · exact .inl hb
  | case5 stack t ts _ _ _ _ ih => exact later (fun _ => .inl) (ih h)
  | case6 _ _ _ _ _ _ _ _ _ ih => exact later (fun _ hb => .inl (List.mem_cons_of_mem _ hb)) (ih h)
  | case7 t ts s hs =>
    cases h
    exact ⟨t, s, .inr ⟨List.mem_cons_self .., hs⟩, rfl⟩
  | case8 t ts s hs =>
    cases h
    exact ⟨t, s, .inr ⟨List.mem_cons_self .., hs⟩, rfl⟩

end Brackets

namespace Loader

variable {σ : Type} [RenderSystem σ]

/-- A load that reads these tokens fails with `e`, and the error is about `t`: about a bracket that
is not balanced, or about the token where reading has stopped, which fits the fault. -/
inductive FailsAt (l : Loader σ) (files : Files) (tokens : List Token) (e : ScriptError) :
    Token → Prop
  | bracket {t : Token} {s : Symbol} : Brackets.check tokens = .error e → t.kind = .symbol s →
      e.fault = .unbalancedBracket s.char → FailsAt l files tokens e t
  | reading {t : Token} {u : Parser.State (Scene σ)} : Brackets.check tokens = .ok () →
      Parser.script.run (l.begin.start files tokens) = (.error e, u) → u.cursor.StopsAt t →
      Parser.BlamedOrLoad t e.fault → FailsAt l files tokens e t

/-- The faults of reading all come from tokens. -/
theorem blamedOrLoad_ne {t : Token} {fault : Fault} (h : Parser.BlamedOrLoad t fault) :
    fault ≠ .invalidTokenStream := by
  rintro rfl
  rcases h with h | ⟨path, h⟩ <;> cases h

/-- A sequence of tokens that declares something fails at one of its tokens. -/
theorem readTokens_failsAt {l : Loader σ} {files : Files} {tokens : List Token} {e : ScriptError}
    (hends : EndsOnce tokens) (h : (l.readTokens files tokens).1 = .error e) :
    e = .unplaced .invalidTokenStream ∨ ∃ t ∈ tokens, l.FailsAt files tokens e t ∧
      e = .placed t.position e.fault ∧ e.fault ≠ .invalidTokenStream := by
  unfold readTokens readOn at h
  split at h
  · cases h
    exact .inl rfl
  right
  split at h
  · rename_i e' hcheck
    cases h
    obtain ⟨t, s, ht, rfl⟩ := Brackets.checkAfter_eq_error hcheck
    rcases ht with ht | ⟨ht, hs⟩
    · cases ht
    refine ⟨t, ht, .bracket hcheck ?_ rfl, rfl, nofun⟩
    unfold Brackets.symbol? at hs
    split at hs
    · cases hs
      assumption
    · cases hs
  · rename_i hcheck
    unfold readFrom at h
    split at h
    · rename_i e' u hrun
      cases h
      have hstart : (l.begin.start files tokens).cursor.tokens = tokens :=
        Cursor.rest_ofTokens hends
      obtain ⟨t, hstops, fault, hblamed, rfl⟩ :=
        Parser.script_faults (by rw [hstart]; exact hends.ends) hrun
      have htokens : u.cursor.tokens = tokens :=
        (Parser.onward_of_run hrun).leads.tokens_eq.trans hstart
      refine ⟨t, ?_, .reading hcheck hrun hstops hblamed, rfl, blamedOrLoad_ne hblamed⟩
      rw [← htokens]
      exact hstops.mem
    · cases h

/-- A script that declares something fails at what cannot be scanned in it, or at one of its tokens,
and the error is placed there. -/
theorem readSource_failsAt (l : Loader σ) (files : Files) (source : String) {e : ScriptError}
    (h : (l.readSource files source).1 = .error e) :
    e = .unplaced .invalidTokenStream ∨
      e.fault ≠ .invalidTokenStream ∧ ∃ before rest, source.toList = before ++ rest ∧
        e = .placed (.ofPrefix before) e.fault ∧
        (Source.tokens source = .error e ∧ Source.Blames e.fault rest ∨
          ∃ tokens t, Source.tokens source = .ok tokens ∧ t ∈ tokens ∧ StartsAt before rest t ∧
            l.FailsAt files tokens e t) := by
  unfold readSource readTextOn at h
  split at h
  · rename_i e' hscan
    cases h
    obtain ⟨before, rest, fault, hsource, hblames, rfl⟩ := Source.tokens_eq_error hscan
    refine .inr ⟨?_, before, rest, hsource, rfl, .inl ⟨hscan, hblames⟩⟩
    rintro rfl
    cases hblames
  · rename_i tokens htokens
    have hends : EndsOnce tokens := by
      obtain ⟨ps, -, hfit, rfl⟩ := Source.tokens_eq_ok_iff.1 htokens
      exact hfit.endsOnce []
    refine (readTokens_failsAt hends h).imp_right ?_
    rintro ⟨t, ht, hfails, hplaced, hfault⟩
    obtain ⟨before, rest, hsource, hstarts⟩ := Source.tokens_startsAt htokens ht
    rw [hstarts.position] at hplaced
    exact ⟨hfault, before, rest, hsource, hplaced, .inr ⟨tokens, t, htokens, ht, hstarts, hfails⟩⟩

/-- **Every error of a script is located in the script.** A load of a text that fails has found
that the text declares nothing, or its error has a line and a column. These are the place of the
text `rest` that stands behind the text `before`: one line for each line feed before it, one column
for each character after the last of them. There stands what the error is about: what cannot be
scanned, or else the start of a token, or the end of the text for the end of the file. -/
theorem readSource_located (l : Loader σ) (files : Files) (source : String) {e : ScriptError}
    (h : (l.readSource files source).1 = .error e) :
    e = .unplaced .invalidTokenStream ∨
      e.fault ≠ .invalidTokenStream ∧ ∃ before rest, source.toList = before ++ rest ∧
        e.line = some (1 + before.count '\n') ∧
        e.column = some (1 + (before.reverse.takeWhile (· != '\n')).length) ∧
        (Source.tokens source = .error e ∧ Source.Blames e.fault rest ∨
          ∃ tokens t, Source.tokens source = .ok tokens ∧ t ∈ tokens ∧ StartsAt before rest t ∧
            l.FailsAt files tokens e t) := by
  refine (readSource_failsAt l files source h).imp_right ?_
  rintro ⟨hfault, before, rest, hsource, hplaced, habout⟩
  exact ⟨hfault, before, rest, hsource, by rw [hplaced]; rfl, by rw [hplaced]; rfl, habout⟩

/-- An unknown word stands behind a comment of two lines, a carriage return and two blanks. -/
theorem readSource_located_unknown_word :
    let source := "/* a\n b */ material \"stone\"\r\n\x7b\n  polish 3\n\x7d\n"
    let read := (Loader.new Recorder.default "/").readSource (fun _ => .error .notFound) source
    read.1 = .error (.placed ⟨4, 3⟩ (.unexpectedIdentifier "polish")) ∧
      ∃ before rest t, source.toList = before ++ rest ∧ 4 = 1 + before.count '\n' ∧
        3 = 1 + (before.reverse.takeWhile (· != '\n')).length ∧ StartsAt before rest t := by
  intro source read
  have hread : read.1 = .error (.placed ⟨4, 3⟩ (.unexpectedIdentifier "polish")) := by
    decide +kernel
  refine ⟨hread, ?_⟩
  rcases readSource_located _ _ source hread with
    hnone | ⟨-, before, rest, hsource, hline, hcolumn, ⟨hscan, -⟩ | ⟨-, t, -, -, hstarts, -⟩⟩
  · cases hnone
  · have hscans : (Source.tokens source).isOk := by decide +kernel
    rw [hscan] at hscans
    cases hscans
  · exact ⟨before, rest, t, hsource, Option.some.inj hline, Option.some.inj hcolumn, hstarts⟩

end Loader

end MaterialScript
