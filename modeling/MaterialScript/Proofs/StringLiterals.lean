/-
String literals, written and read.

Every string can be written as a literal, with a backslash before quotes and
backslashes and `\n` for a line feed, and is read back as it was. A literal
written this way has no line feed in it, so in a row of them each stands in the
column that the ones before it leave (`tokens_inRow`).

Other literals may reach over lines: a backslash takes a line feed like any
other character. A literal ends unclosed at the first line feed that is not
taken so (`tokens_literal_lineFeed`).
-/
import MaterialScript.Proofs.LineFeeds
import MaterialScript.Proofs.Location
import MaterialScript.Proofs.Outline

namespace MaterialScript

/-! ## Literals in a row -/

namespace Position

/-- On the first row the column counts the characters. -/
theorem ofPrefix_of_no_lineFeed {before : List Char} (h : '\n' ∉ before) :
    ofPrefix before = ⟨1, 1 + before.length⟩ := by
  have hrow : before.reverse.takeWhile (· != '\n') = before.reverse := by
    rw [List.takeWhile_eq_self_iff]
    intro c hc
    have hne : c ≠ '\n' := fun heq => h (heq ▸ List.mem_reverse.1 hc)
    simpa using hne
  simp [ofPrefix, List.count_eq_zero_of_not_mem h, hrow]

end Position

namespace Outline.TextLiteral

/-- A string as a literal: between double quotes, with a backslash before quotes and backslashes
and `\n` for each line feed. -/
def quote (s : String) : List Char := '"' :: escape s.toList ++ ['"']

/-- Strings as literals in a row, with a blank between any two. -/
def inRow (ss : List String) : List Char := [' '].intercalate (ss.map quote)

/-- The string tokens of a row of literals that starts in this column of the first line, a blank
between any two, and the end of the file after them. -/
def rowTokens (column : Nat) : List String → List Token
  | [] => [.bare .endOfFile ⟨1, column⟩]
  | [s] => [⟨.string, s, ⟨1, column⟩⟩, .bare .endOfFile ⟨1, column + (quote s).length⟩]
  | s :: t :: ss =>
    ⟨.string, s, ⟨1, column⟩⟩ :: .bare .blank ⟨1, column + (quote s).length⟩ ::
      rowTokens (column + (quote s).length + 1) (t :: ss)

/-- The pieces of a row of literals. -/
def rowPieces : List String → List Piece
  | [] => []
  | [s] => [(of s).piece]
  | s :: t :: ss => (of s).piece :: .single ' ' .blank :: rowPieces (t :: ss)

theorem lineFeed_not_mem_escape (cs : List Char) : '\n' ∉ escape cs := by
  fun_induction escape cs with
  | case1 => simp
  | case2 cs ih => simpa using ih
  | case3 c cs hline hescape ih => rcases hescape with rfl | rfl <;> simpa using ih
  | case4 c cs hline hplain ih => simpa using ⟨Ne.symm hline, ih⟩

theorem lineFeed_not_mem_quote (s : String) : '\n' ∉ quote s := by
  simpa [quote] using lineFeed_not_mem_escape s.toList

theorem source_piece_of (s : String) : (of s).piece.source = quote s := rfl

theorem tokens_piece_of (s : String) (position : Position) :
    (of s).piece.tokens position = [⟨.string, s, position⟩] := by
  simp [piece, of, Piece.tokens]

theorem sources_rowPieces (ss : List String) : sources (rowPieces ss) = inRow ss := by
  fun_induction rowPieces ss with
  | case1 => rfl
  | case2 s => simp [inRow, source_piece_of]
  | case3 s t ss ih =>
    rw [sources_cons, sources_cons, ih, source_piece_of]
    simp [inRow, List.intercalate, Piece.source, Piece.single]

/-- A literal may stand before anything, and so may a blank. -/
theorem fit_rowPieces (ss : List String) (rest : List Char) : Fit (rowPieces ss) rest := by
  fun_induction rowPieces ss with
  | case1 => trivial
  | case2 s => exact ⟨.literal _ (of s).quoted, trivial⟩
  | case3 s t ss ih => exact ⟨.literal _ (of s).quoted, .blank _, ih⟩

theorem tokensOf_rowPieces (ss : List String) {before : List Char} (h : '\n' ∉ before) :
    tokensOf before (rowPieces ss) = rowTokens (1 + before.length) ss := by
  induction ss generalizing before with
  | nil => simp [rowPieces, rowTokens, tokensOf, Position.ofPrefix_of_no_lineFeed h]
  | cons s ss ih =>
    have hquote : '\n' ∉ before ++ quote s := by simp [h, lineFeed_not_mem_quote]
    cases ss with
    | nil =>
      simp [rowPieces, rowTokens, tokensOf, source_piece_of, tokens_piece_of,
        Position.ofPrefix_of_no_lineFeed h, Position.ofPrefix_of_no_lineFeed hquote, Nat.add_assoc]
    | cons t ss =>
      have hblank : '\n' ∉ before ++ quote s ++ [' '] := by simpa using hquote
      have hrow := ih hblank
      simp only [List.length_append, List.length_singleton, ← Nat.add_assoc] at hrow
      simp only [rowPieces, rowTokens, tokensOf, source_piece_of, tokens_piece_of,
        Position.ofPrefix_of_no_lineFeed h, Position.ofPrefix_of_no_lineFeed hquote,
        List.length_append, ← Nat.add_assoc]
      exact congrArg _ (congrArg _ hrow)

end Outline.TextLiteral

open Outline

/-- **Strings are read back as they were written.** A row of literals with single blanks between
them scans to the string tokens with these texts in order, a blank between any two and the end of
the file after them, each on the first line in the column where it starts. -/
theorem Source.tokens_inRow (ss : List String) :
    tokens (String.ofList (TextLiteral.inRow ss)) = .ok (TextLiteral.rowTokens 1 ss) := by
  refine tokens_eq_ok_iff.2 ⟨TextLiteral.rowPieces ss, ?_, TextLiteral.fit_rowPieces ss [], ?_⟩
  · rw [String.toList_ofList, TextLiteral.sources_rowPieces]
  · exact (TextLiteral.tokensOf_rowPieces ss List.not_mem_nil).symm

/-! ## Line feeds in literals -/

/-- A line feed in a literal stands right after a backslash that takes it. -/
theorem Quoted.lineFeed_taken {written content : List Char} (h : Quoted written content)
    {front back : List Char} (heq : written = front ++ '\n' :: back) :
    ∃ before meaning, front = before ++ ['\\'] ∧ Quoted before meaning := by
  induction h generalizing front with
  | nil => simp at heq
  | @plain c _ _ hquote hback hline _ ih =>
    cases front with
    | nil => exact absurd (List.cons_eq_cons.1 heq).1 hline
    | cons d front =>
      obtain ⟨rfl, hfront⟩ := List.cons_eq_cons.1 heq
      obtain ⟨before, meaning, rfl, hbefore⟩ := ih hfront
      exact ⟨c :: before, c :: meaning, rfl, .plain hquote hback hline hbefore⟩
  | @escaped c _ _ _ ih =>
    rcases front with _ | ⟨d, _ | ⟨e, front⟩⟩
    · cases heq
    · cases heq
      exact ⟨[], [], rfl, .nil⟩
    · obtain ⟨rfl, rfl, hfront⟩ : '\\' = d ∧ c = e ∧ _ = front ++ '\n' :: back := by
        simpa using heq
      obtain ⟨before, meaning, rfl, hbefore⟩ := ih hfront
      exact ⟨'\\' :: c :: before, Literal.unescape c :: meaning, rfl, .escaped c hbefore⟩

/-- Parts of a literal make up a literal. -/
theorem Quoted.append {a b content meaning : List Char} (ha : Quoted a content)
    (hb : Quoted b meaning) : Quoted (a ++ b) (content ++ meaning) := by
  induction ha with
  | nil => exact hb
  | plain hquote hback hline _ ih => exact .plain hquote hback hline ih
  | escaped c _ ih => exact .escaped c ih

/-- No literal goes past a line feed that no backslash takes. -/
theorem Literal.cut?_of_lineFeed {written content : List Char} (h : Quoted written content)
    (more : List Char) : Literal.cut? (written ++ '\n' :: more) = none := by
  induction h with
  | nil => rfl
  | plain hquote hback hline _ ih =>
    rw [List.cons_append, Literal.cut?, ih]
    · rfl
    · exact fun heq => absurd heq hback
    · exact hquote
    · exact fun _ _ heq => absurd heq hback
    · exact hline
  | escaped c _ ih => simp [Literal.cut?, ih]

theorem Position.row_ofPrefix_append (before text : List Char) :
    (ofPrefix (before ++ text)).row = (ofPrefix before).row + text.count '\n' := by
  simp [ofPrefix, Nat.add_assoc]

/-- A string token is a literal of the script. -/
theorem Source.exists_literal {source : String} {ts : List Token} (h : tokens source = .ok ts)
    {t : Token} (ht : t ∈ ts) (hkind : t.kind = .string) :
    ∃ before written content rest, source.toList = before ++ '"' :: written ++ '"' :: rest ∧
      Quoted written content ∧ t = ⟨.string, .ofList content, .ofPrefix before⟩ := by
  obtain ⟨before, rest, hsource, hstarts⟩ := tokens_startsAt h ht
  cases hstarts with
  | endOfFile => cases hkind
  | @piece p more _ hstands htokens =>
    cases hstands with
    | carriageReturn | lineComment | blockComment | openComment => cases htokens
    | blank | tab | newline | symbol | name => cases htokens; cases hkind
    | number hnumber =>
      cases htokens
      obtain @⟨_, fraction, exponent, -, -, -⟩ := hnumber
      by_cases hinteger : fraction = [] ∧ exponent = [] <;> simp [hinteger] at hkind
    | @literal written content _ hquoted =>
      cases htokens
      exact ⟨before, written, content, more, by simp [hsource, Piece.source], hquoted, rfl⟩

/-- **A string literal reaches over a line feed only where a backslash takes it.** In every script
- a line feed in a literal that no backslash takes leaves the literal unterminated, and the error
  is at its opening quote;
- one that a backslash takes is a character of the literal like any other, and scanning goes on
  behind the closing quote;
- the line feeds in the literals of a script that can be scanned are all taken by a backslash, and
  each lets its literal end one line further down, so a literal without them begins and ends on the
  same line. -/
theorem Source.tokens_literal_lineFeed (source : String) :
    (∀ ps written content more,
      source.toList = sources ps ++ '"' :: written ++ '\n' :: more →
      Fit ps ('"' :: written ++ '\n' :: more) → Quoted written content →
      tokens source = .error (.placed (.ofPrefix (sources ps)) .unterminatedString)) ∧
    (∀ ps a b content meaning rest,
      source.toList = sources ps ++ '"' :: (a ++ '\\' :: '\n' :: b) ++ '"' :: rest →
      Fit ps ('"' :: (a ++ '\\' :: '\n' :: b) ++ '"' :: rest) → Quoted a content →
      Quoted b meaning →
      ∃ front, tokens source =
        (tokensFrom (.ofPrefix (sources ps ++ '"' :: (a ++ '\\' :: '\n' :: b) ++ ['"'])) rest).map
          (front ++ ⟨.string, .ofList (content ++ '\n' :: meaning), .ofPrefix (sources ps)⟩ :: ·)) ∧
    (∀ ts, tokens source = .ok ts → ∀ t ∈ ts, t.kind = .string →
      ∃ before written content rest, source.toList = before ++ '"' :: written ++ '"' :: rest ∧
        Quoted written content ∧ t = ⟨.string, .ofList content, .ofPrefix before⟩ ∧
        (∀ front back, written = front ++ '\n' :: back →
          ∃ passed meaning, front = passed ++ ['\\'] ∧ Quoted passed meaning) ∧
        (Position.ofPrefix (before ++ '"' :: written)).row =
          t.position.row + written.count '\n') := by
  have hstart : Position.start = .ofPrefix [] := rfl
  refine ⟨?_, ?_, ?_⟩
  · intro ps written content more hsource hfit hquoted
    have hcut : Piece.cut '"' (written ++ '\n' :: more) = .error .unterminatedString := by
      simp [Piece.cut, Piece.cutLiteral, Literal.cut?_of_lineFeed hquoted]
    obtain ⟨front, -, hscan⟩ := hfit.tokensFrom_append []
    rw [tokens, hsource, hstart, List.append_assoc, hscan]
    exact congrArg _ (tokensFrom_of_cut_eq_error hcut _)
  · intro ps a b content meaning rest hsource hfit ha hb
    have hquoted : Quoted (a ++ '\\' :: '\n' :: b) (content ++ '\n' :: meaning) :=
      ha.append (.escaped '\n' hb)
    have hcut : Piece.cut '"' ((a ++ '\\' :: '\n' :: b) ++ '"' :: rest) = .ok (_, rest) :=
      Piece.cut_of_stands (.literal rest hquoted) (by simp [Piece.source])
    obtain ⟨front, -, hscan⟩ := hfit.tokensFrom_append []
    refine ⟨front, ?_⟩
    rw [tokens, hsource, hstart, List.append_assoc, hscan, List.nil_append]
    rw [List.cons_append, tokensFrom_of_cut_eq_ok hcut, Position.afterAll_ofPrefix]
    simp only [Piece.source, List.cons_append, List.append_assoc]
    cases tokensFrom _ rest <;> simp [Except.map, Piece.tokens]
  · intro ts hts t ht hkind
    obtain ⟨before, written, content, rest, hsource, hquoted, rfl⟩ := exists_literal hts ht hkind
    refine ⟨before, written, content, rest, hsource, hquoted, rfl,
      fun front back => hquoted.lineFeed_taken, ?_⟩
    simp [Position.row_ofPrefix_append]

/-- A missing quote at the end of a line: the error is at the quote that is there. -/
theorem Source.tokens_literal_lineFeed_unclosed :
    let ps : List Piece := [.lexeme ['x'] .name ['x'], .single ' ' .blank]
    Fit ps ('"' :: ['a', 'b'] ++ '\n' :: ['"']) ∧ Quoted ['a', 'b'] ['a', 'b'] ∧
      tokens "x \"ab\n\"" = .error (.placed ⟨1, 3⟩ .unterminatedString) := by
  intro ps
  have hfit : Fit ps ('"' :: ['a', 'b'] ++ '\n' :: ['"']) :=
    ⟨.name rfl (by simp) (by rintro _ ⟨⟩; rfl), .blank _, trivial⟩
  have hquoted : Quoted ['a', 'b'] ['a', 'b'] :=
    .plain (by decide) (by decide) (by decide) (.plain (by decide) (by decide) (by decide) .nil)
  exact ⟨hfit, hquoted,
    (tokens_literal_lineFeed "x \"ab\n\"").1 ps ['a', 'b'] ['a', 'b'] ['"'] rfl hfit hquoted⟩

/-- A backslash at the end of a line: a line feed stands after the opening quote and before the
closing one, and the literal goes on in the next line. -/
theorem Source.tokens_backslash_lineFeed :
    "\"a\\\nb\"".toList = '"' :: ['a', '\\'] ++ '\n' :: ['b'] ++ ['"'] ∧
      tokens "\"a\\\nb\"" = .ok [⟨.string, "a\nb", ⟨1, 1⟩⟩, .bare .endOfFile ⟨2, 3⟩] ∧
      (Position.ofPrefix "\"a\\\nb".toList).row = 2 := by
  refine ⟨rfl, ?_, rfl⟩
  decide +kernel

end MaterialScript
