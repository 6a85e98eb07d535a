/-
How a script is made up of pieces.

A script that can be scanned is its lexemes and gaps in a row, each standing
where the next ones follow (`Fit`), and its tokens can be told from them
(`tokensOf`): what a lexeme says and where it starts, which only depends on the
text before it. No text can be divided in two ways, so where scanning fails no
other division would have come further.
-/
import Mathlib.Data.List.Induction
import MaterialScript.Proofs.Lexemes
import MaterialScript.Proofs.Reading
import MaterialScript.Source.Tokens

namespace MaterialScript

namespace Position

/-- The place that follows a stretch of text at the front of a script: one row for each line feed,
one column for each character after the last of them. -/
def ofPrefix (before : List Char) : Position :=
  ⟨1 + before.count '\n', 1 + (before.reverse.takeWhile (· != '\n')).length⟩

theorem after_ofPrefix (before : List Char) (c : Char) :
    (ofPrefix before).after c = ofPrefix (before ++ [c]) := by
  by_cases hc : c = '\n'
  · simp [after, ofPrefix, hc, Nat.add_assoc]
  · simp [after, ofPrefix, hc, List.count_append]
    omega

theorem afterAll_ofPrefix (before text : List Char) :
    (ofPrefix before).afterAll text = ofPrefix (before ++ text) := by
  induction text generalizing before with
  | nil => simp
  | cons c text ih =>
    have hnext := ih (before ++ [c])
    rw [← after_ofPrefix, List.append_assoc, List.singleton_append] at hnext
    exact hnext

end Position

/-! ## Pieces in a row -/

/-- Pieces as written. -/
def sources (ps : List Piece) : List Char := ps.flatMap Piece.source

@[simp] theorem sources_nil : sources [] = [] := rfl

@[simp] theorem sources_cons (p : Piece) (ps : List Piece) :
    sources (p :: ps) = p.source ++ sources ps := rfl

@[simp] theorem sources_append (ps qs : List Piece) :
    sources (ps ++ qs) = sources ps ++ sources qs := List.flatMap_append

/-- Each piece may stand where the ones after it follow, and `rest` at last. -/
def Fit : List Piece → List Char → Prop
  | [], _ => True
  | p :: ps, rest => Stands p (sources ps ++ rest) ∧ Fit ps rest

theorem fit_append {ps qs : List Piece} {rest : List Char} :
    Fit (ps ++ qs) rest ↔ Fit ps (sources qs ++ rest) ∧ Fit qs rest := by
  induction ps with
  | nil => simp [Fit]
  | cons p ps ih => simp [Fit, ih, and_assoc]

/-- The tokens of pieces that follow the text `before`, with the end of the file after them. -/
def tokensOf (before : List Char) : List Piece → List Token
  | [] => [.bare .endOfFile (.ofPrefix before)]
  | p :: ps => p.tokens (.ofPrefix before) ++ tokensOf (before ++ p.source) ps

theorem Stands.source_ne_nil {p : Piece} {rest : List Char} (h : Stands p rest) :
    p.source ≠ [] := by
  cases h with
  | number hnumber =>
    obtain @⟨whole, _, _, hwhole, -, -⟩ := hnumber
    simp [Piece.source, hwhole.ne_nil]
  | _ => simp [Piece.source, Piece.single]

theorem Stands.not_isEndOfFile {p : Piece} {rest : List Char} (h : Stands p rest)
    (position : Position) : ∀ t ∈ p.tokens position, t.isEndOfFile = false := by
  cases h with
  | number hnumber =>
    obtain @⟨_, fraction, exponent, -, -, -⟩ := hnumber
    by_cases hinteger : fraction = [] ∧ exponent = [] <;>
      simp [Piece.tokens, Token.isEndOfFile, hinteger]
  | _ => simp [Piece.tokens, Piece.single, Token.isEndOfFile]

/-- The end of the file is told once, at the end. -/
theorem Fit.endsOnce {ps : List Piece} {rest : List Char} (h : Fit ps rest) (before : List Char) :
    EndsOnce (tokensOf before ps) := by
  induction ps generalizing before with
  | nil => exact ⟨[], _, rfl, rfl, by simp⟩
  | cons p ps ih =>
    obtain ⟨front, last, htokens, hlast, hfront⟩ := ih h.2 (before ++ p.source)
    refine ⟨p.tokens (.ofPrefix before) ++ front, last, by simp [tokensOf, htokens], hlast, ?_⟩
    intro t ht
    rcases List.mem_append.1 ht with ht | ht
    · exact h.1.not_isEndOfFile _ t ht
    · exact hfront t ht

/-- Of two divisions of a text, one goes on where the other ends. -/
theorem Fit.prefix_or_prefix {ps qs : List Piece} {rest more : List Char} (hps : Fit ps rest)
    (hqs : Fit qs more) (h : sources ps ++ rest = sources qs ++ more) : ps <+: qs ∨ qs <+: ps := by
  induction ps generalizing qs with
  | nil => exact .inl List.nil_prefix
  | cons p ps ih =>
    cases qs with
    | nil => exact .inr List.nil_prefix
    | cons q qs =>
      obtain ⟨c, cs, hcs⟩ : ∃ c cs, p.source ++ (sources ps ++ rest) = c :: cs :=
        List.exists_cons_of_ne_nil (by simp [hps.1.source_ne_nil])
      have hcs' : q.source ++ (sources qs ++ more) = c :: cs := by
        rw [← hcs]
        simpa using h.symm
      have hp := Piece.cut_of_stands hps.1 hcs
      rw [Piece.cut_of_stands hqs.1 hcs'] at hp
      obtain ⟨rfl, hsources⟩ : q = p ∧ sources qs ++ more = sources ps ++ rest := by simpa using hp
      exact (ih hps.2 hqs.2 hsources.symm).imp (List.prefix_cons_inj q).2 (List.prefix_cons_inj q).2

/-- No row of pieces goes on where nothing can be cut off. -/
theorem Fit.prefix_of_cut_eq_error {ps qs : List Piece} {c : Char} {rest more : List Char}
    {fault : Fault} (h : Fit ps (c :: rest)) (hcut : Piece.cut c rest = .error fault)
    (hqs : Fit qs more) (hsource : sources ps ++ c :: rest = sources qs ++ more) : qs <+: ps := by
  rcases h.prefix_or_prefix hqs hsource with ⟨rs, rfl⟩ | hprefix
  · cases rs with
    | nil => simp
    | cons p rs =>
      -- the next piece would be the one that could not be cut off
      obtain ⟨-, hstands, -⟩ := fit_append.1 hqs
      have hcs : p.source ++ (sources rs ++ more) = c :: rest := by simpa using hsource.symm
      rw [Piece.cut_of_stands hstands hcs] at hcut
      cases hcut
  · exact hprefix

/-! ## Scanning -/

namespace Source

theorem tokensFrom_of_cut_eq_error {c : Char} {cs : List Char} {fault : Fault}
    (h : Piece.cut c cs = .error fault) (position : Position) :
    tokensFrom position (c :: cs) = .error (.placed position fault) := by
  rw [tokensFrom]
  split
  · rename_i other hother
    rw [h] at hother
    cases hother
    rfl
  · rename_i p rest hp
    rw [h] at hp
    cases hp

theorem tokensFrom_of_cut_eq_ok {c : Char} {cs rest : List Char} {p : Piece}
    (h : Piece.cut c cs = .ok (p, rest)) (position : Position) :
    tokensFrom position (c :: cs) =
      (tokensFrom (position.afterAll p.source) rest).map (p.tokens position ++ ·) := by
  rw [tokensFrom]
  split
  · rename_i fault hfault
    rw [h] at hfault
    cases hfault
  · rename_i q more hq
    rw [h] at hq
    cases hq
    cases tokensFrom (position.afterAll p.source) rest <;> rfl

/-- Pieces in a row are scanned as they stand. -/
theorem tokensFrom_of_fit {ps : List Piece} (h : Fit ps []) (before : List Char) :
    tokensFrom (.ofPrefix before) (sources ps) = .ok (tokensOf before ps) := by
  induction ps generalizing before with
  | nil => simp [tokensFrom, tokensOf]
  | cons p ps ih =>
    obtain ⟨c, cs, hcs⟩ : ∃ c cs, sources (p :: ps) = c :: cs :=
      List.exists_cons_of_ne_nil (by simp [h.1.source_ne_nil])
    have hstands : Stands p (sources ps) := by simpa using h.1
    have hcut : Piece.cut c cs = .ok (p, sources ps) := Piece.cut_of_stands hstands hcs
    have hmore := ih h.2 (before ++ p.source)
    rw [← Position.afterAll_ofPrefix] at hmore
    rw [hcs, tokensFrom_of_cut_eq_ok hcut, hmore]
    rfl

/-- A text is scanned to its end, or to where nothing can be cut off. -/
theorem tokensFrom_cases (before cs : List Char) :
    (∃ ps, cs = sources ps ∧ Fit ps []) ∨
      ∃ ps c rest fault, cs = sources ps ++ c :: rest ∧ Fit ps (c :: rest) ∧
        Piece.cut c rest = .error fault ∧
        tokensFrom (.ofPrefix before) cs =
          .error (.placed (.ofPrefix (before ++ sources ps)) fault) := by
  induction hlength : cs.length using Nat.strong_induction_on generalizing before cs with
  | _ length ih =>
  subst hlength
  rcases cs with _ | ⟨c, cs⟩
  · exact .inl ⟨[], rfl, trivial⟩
  rcases hcut : Piece.cut c cs with fault | ⟨p, rest⟩
  · refine .inr ⟨[], c, cs, fault, rfl, trivial, hcut, ?_⟩
    simpa using tokensFrom_of_cut_eq_error hcut (.ofPrefix before)
  · obtain ⟨hsource, hstands⟩ := Piece.cut_eq_ok_iff.1 hcut
    rcases ih rest.length (Piece.length_rest hcut) (before ++ p.source) rest rfl with
      ⟨ps, rfl, hfit⟩ | ⟨ps, d, more, fault, rfl, hfit, hfault, hrun⟩
    · exact .inl ⟨p :: ps, hsource.symm, by simpa using hstands, hfit⟩
    · refine .inr ⟨p :: ps, d, more, fault, ?_, ⟨hstands, hfit⟩, hfault, ?_⟩
      · simpa using hsource.symm
      · rw [← Position.afterAll_ofPrefix] at hrun
        rw [tokensFrom_of_cut_eq_ok hcut, hrun, sources_cons, List.append_assoc]
        rfl

/-- What a fault is about stands at the front of the text. -/
inductive Blames : Fault → List Char → Prop
  | character (c : Char) (more : List Char) : Blames (.unexpectedCharacter c) (c :: more)
  | literal (more : List Char) : Blames .unterminatedString ('"' :: more)
  | number {digit : Char} {digits more : List Char} :
      digit.isDigit →
      Blames (.invalidNumber (String.ofList (digit :: digits))) (digit :: digits ++ more)

theorem blames_of_cut {c : Char} {cs : List Char} {fault : Fault}
    (h : Piece.cut c cs = .error fault) : Blames fault (c :: cs) := by
  unfold Piece.cut at h
  split at h
  · cases h
  · cases h
  · cases h
  · cases h
  · cases h
  · cases h
  · unfold Piece.cutLiteral at h
    split at h
    · cases h
    · cases h
      exact .literal _
  · split at h
    · rename_i hdigit
      unfold Piece.cutNumber at h
      split at h
      rename_i n rest hn
      split at h
      · cases h
      · cases h
        have happend := Numeral.lexeme_append_cut (c :: cs)
        obtain ⟨d, digits, hlexeme⟩ : ∃ d digits, n.lexeme = d :: digits := by
          have hne := Numeral.lexeme_cut_ne_nil cs hdigit
          rw [hn] at hne
          exact List.exists_cons_of_ne_nil hne
        rw [hn, hlexeme] at happend
        obtain ⟨rfl, hcs⟩ := List.cons_eq_cons.1 happend
        rw [hlexeme, ← hcs]
        exact .number hdigit
    · split at h
      · cases h
      · unfold Piece.cutSymbol at h
        split at h
        · cases h
        · cases h
          exact .character _ _

/-- A text is scanned exactly if it is a row of pieces, and into their tokens. -/
theorem tokens_eq_ok_iff {source : String} {ts : List Token} :
    tokens source = .ok ts ↔
      ∃ ps, source.toList = sources ps ∧ Fit ps [] ∧ ts = tokensOf [] ps := by
  have hrun : ∀ ps, source.toList = sources ps → Fit ps [] →
      tokens source = .ok (tokensOf [] ps) := by
    intro ps hsource hfit
    rw [tokens, hsource]
    exact tokensFrom_of_fit hfit []
  constructor
  · intro h
    rcases tokensFrom_cases [] source.toList with
      ⟨ps, hsource, hfit⟩ | ⟨ps, c, rest, fault, -, -, -, herror⟩
    · rw [hrun ps hsource hfit] at h
      cases h
      exact ⟨ps, hsource, hfit, rfl⟩
    · rw [tokens] at h
      cases herror.symm.trans h
  · rintro ⟨ps, hsource, hfit, rfl⟩
    exact hrun ps hsource hfit

/-- **Scanning divides a script into its tokens and the gaps between them.**
- It succeeds exactly where the text is a row of lexemes and gaps, each standing where the next
  ones follow. The tokens are then those of the lexemes, in order: each has the kind and the text
  of its lexeme and starts as many rows and columns into the script as the text before it says.
- The end of the file is told once, at the end.
- Where it fails, there is a row of lexemes and gaps at the front of the text that every other
  such row is a part of, and the error is placed right after it, at the character, string literal
  or number it blames. -/
theorem tokens_partition (source : String) :
    (∀ ts, tokens source = .ok ts ↔
      ∃ ps, source.toList = sources ps ∧ Fit ps [] ∧ ts = tokensOf [] ps) ∧
    (∀ ts, tokens source = .ok ts → EndsOnce ts) ∧
    (∀ e, tokens source = .error e → ∃ ps rest fault,
      source.toList = sources ps ++ rest ∧ Fit ps rest ∧
      (∀ qs more, source.toList = sources qs ++ more → Fit qs more → qs <+: ps) ∧
      Blames fault rest ∧ e = .placed (.ofPrefix (sources ps)) fault) := by
  refine ⟨fun ts => tokens_eq_ok_iff, fun ts h => ?_, fun e h => ?_⟩
  · obtain ⟨ps, -, hfit, rfl⟩ := tokens_eq_ok_iff.1 h
    exact hfit.endsOnce []
  · rcases tokensFrom_cases [] source.toList with
      ⟨ps, hsource, hfit⟩ | ⟨ps, c, rest, fault, hsource, hfit, hcut, herror⟩
    · rw [tokens_eq_ok_iff.2 ⟨ps, hsource, hfit, rfl⟩] at h
      cases h
    · rw [tokens] at h
      cases herror.symm.trans h
      refine ⟨ps, c :: rest, fault, hsource, hfit, fun qs more hqs hfitqs => ?_,
        blames_of_cut hcut, by simp⟩
      exact hfit.prefix_of_cut_eq_error hcut hfitqs (hsource.symm.trans hqs)

end Source

end MaterialScript
