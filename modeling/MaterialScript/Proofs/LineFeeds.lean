/-
A line feed keeps apart what stands before and after it.

No piece in front of a line feed is changed by the text that follows it, except
for a block comment that is never closed (`EndsInComment`). So where a text can
be scanned and leaves no comment open, a line feed and any other text may
follow: the tokens of the first stay, and the second is scanned as on its own,
only further down (`Source.tokens_lineFeed`).
-/
import MaterialScript.Proofs.Partition

namespace MaterialScript

/-! ## Further down -/

/-- The place in the same column, `k` rows further down. -/
def Position.down (k : Nat) (p : Position) : Position := ⟨p.row + k, p.column⟩

/-- The token `k` rows further down. -/
def Token.down (k : Nat) (t : Token) : Token := { t with position := t.position.down k }

/-- The error `k` lines further down. -/
def ScriptError.down (k : Nat) (e : ScriptError) : ScriptError :=
  { e with line := e.line.map (· + k) }

/-- What scanning comes to for a text that starts `k` rows further down. -/
def Source.down (k : Nat) : Except ScriptError (List Token) → Except ScriptError (List Token)
  | .ok ts => .ok (ts.map (·.down k))
  | .error e => .error (e.down k)

namespace Position

theorem after_down (k : Nat) (p : Position) (c : Char) :
    (p.down k).after c = (p.after c).down k := by
  unfold after down
  split
  · simp [Nat.add_right_comm]
  · rfl

theorem afterAll_down (k : Nat) (p : Position) (text : List Char) :
    (p.down k).afterAll text = (p.afterAll text).down k := by
  induction text generalizing p with
  | nil => rfl
  | cons c text ih =>
    change ((p.down k).after c).afterAll text = ((p.after c).afterAll text).down k
    rw [after_down, ih]

/-- After a line feed a script goes on at the start of a row. -/
theorem ofPrefix_lineFeed (before : List Char) :
    ofPrefix (before ++ ['\n']) = start.down (1 + before.count '\n') := by
  simp [ofPrefix, start, down, Nat.add_comm]

end Position

theorem Piece.tokens_down (k : Nat) (p : Piece) (position : Position) :
    p.tokens (position.down k) = (p.tokens position).map (·.down k) := by
  cases p <;> rfl

namespace Source

theorem down_map_append (k : Nat) (front : List Token) (scanned : Except ScriptError (List Token)) :
    down k (scanned.map (front ++ ·)) = (down k scanned).map (front.map (·.down k) ++ ·) := by
  cases scanned with
  | error e => rfl
  | ok ts => simp [down, Except.map]

/-- A text is scanned alike wherever it starts in its column. -/
theorem tokensFrom_down (k : Nat) (position : Position) (cs : List Char) :
    tokensFrom (position.down k) cs = down k (tokensFrom position cs) := by
  induction hlength : cs.length using Nat.strong_induction_on generalizing position cs with
  | _ length ih =>
  subst hlength
  rcases cs with _ | ⟨c, cs⟩
  · simp only [tokensFrom]
    rfl
  rcases hcut : Piece.cut c cs with fault | ⟨p, rest⟩
  · rw [tokensFrom_of_cut_eq_error hcut, tokensFrom_of_cut_eq_error hcut]
    rfl
  · rw [tokensFrom_of_cut_eq_ok hcut, tokensFrom_of_cut_eq_ok hcut, down_map_append,
      Position.afterAll_down, Piece.tokens_down, ih rest.length (Piece.length_rest hcut) _ rest rfl]

end Source

/-! ## Pieces before a line feed -/

theorem Fraction.no_lineFeed {f : List Char} (h : Fraction f) : '\n' ∉ f := by
  cases h with
  | point hpart =>
    intro hmem
    rcases List.mem_cons.1 hmem with hpoint | hdigit
    · cases hpoint
    · exact absurd (hpart.digits _ hdigit) (by decide)

theorem Exponent.no_lineFeed {e : List Char} (h : Exponent e) : '\n' ∉ e := by
  have hdigits : ∀ {part : List Char}, Digits part → '\n' ∉ part := fun hpart hmem =>
    absurd (hpart.digits _ hmem) (by decide)
  cases h with
  | plain hmark hpart =>
    intro hmem
    rcases List.mem_cons.1 hmem with rfl | hmem
    · simp at hmark
    · exact hdigits hpart hmem
  | signed hmark hsign hpart =>
    intro hmem
    rcases List.mem_cons.1 hmem with rfl | hmem
    · simp at hmark
    rcases List.mem_cons.1 hmem with rfl | hmem
    · simp at hsign
    · exact hdigits hpart hmem

section LineFeed

variable {rest : List Char} {p : Piece}

/-- What is asked of the next character is asked of the line feed where nothing else follows. -/
theorem head_lineFeed {ok : Char → Prop} (h : ∀ c ∈ rest.head?, ok c) (hlineFeed : ok '\n')
    (more : List Char) : ∀ c ∈ (rest ++ '\n' :: more).head?, ok c := by
  cases rest with
  | nil => simpa using hlineFeed
  | cons c rest => simpa using h

/-- A part of the text without line feeds does not reach over one. -/
theorem no_front_lineFeed {part : List Char → Prop} (hpart : ∀ f, part f → '\n' ∉ f)
    (h : ∀ f after, rest = f ++ after → ¬ part f) (more : List Char) :
    ∀ f after, rest ++ '\n' :: more = f ++ after → ¬ part f := by
  intro f after heq hf
  rcases List.append_eq_append_iff.1 heq with ⟨left, rfl, hleft⟩ | ⟨left, rfl, -⟩
  · cases left with
    | nil => exact h rest [] (List.append_nil _).symm (by simpa using hf)
    | cons c left =>
      obtain ⟨rfl, -⟩ := List.cons_eq_cons.1 hleft
      exact hpart _ hf (by simp)
  · exact h f left rfl hf

theorem NumberEnds.lineFeed {kind : TokenKind} (h : NumberEnds kind rest) (more : List Char) :
    NumberEnds kind (rest ++ '\n' :: more) where
  digit := head_lineFeed h.digit rfl more
  exponent := no_front_lineFeed (fun _ => Exponent.no_lineFeed) h.exponent more
  fraction hkind := no_front_lineFeed (fun _ => Fraction.no_lineFeed) (h.fraction hkind) more

/-- A block comment that is never closed. -/
def Piece.OpenComment (p : Piece) : Prop :=
  ∃ body, p = .gap ('/' :: '*' :: body) ∧ NeverCloses body

/-- What stands at its place may still stand there if a line feed follows the text. -/
theorem Stands.lineFeed (h : Stands p rest) (hclosed : ¬ p.OpenComment) (more : List Char) :
    Stands p (rest ++ '\n' :: more) := by
  cases h with
  | carriageReturn => exact .carriageReturn _
  | lineComment hbody hrest => exact .lineComment hbody (head_lineFeed hrest rfl more)
  | blockComment _ hbody => exact .blockComment _ hbody
  | openComment hbody => exact absurd ⟨_, rfl, hbody⟩ hclosed
  | blank => exact .blank _
  | tab => exact .tab _
  | newline => exact .newline _
  | symbol hslash => exact .symbol fun hs => head_lineFeed (hslash hs) (by decide) more
  | name hstarts hcontinues hrest =>
    exact .name hstarts hcontinues (head_lineFeed hrest rfl more)
  | number hnumber hends => exact .number hnumber (hends.lineFeed more)
  | literal _ hquoted => exact .literal _ hquoted

end LineFeed

/-- Pieces that make up a text fit in front of a line feed, unless the last is an open comment. -/
theorem Fit.lineFeed {ps : List Piece} (h : Fit ps [])
    (hclosed : ∀ front p, ps = front ++ [p] → ¬ p.OpenComment) (more : List Char) :
    Fit ps ('\n' :: more) := by
  induction ps with
  | nil => trivial
  | cons p ps ih =>
    have hstands : Stands p (sources ps) := by simpa using h.1
    refine ⟨hstands.lineFeed ?_ more,
      ih h.2 fun front q hq => hclosed (p :: front) q (by simp [hq])⟩
    rintro ⟨body, rfl, hbody⟩
    -- an open comment leaves nothing over, so it is the last piece
    have hnil : ps = [] := by
      cases ps with
      | nil => rfl
      | cons q ps =>
        generalize hrest : sources (q :: ps) = rest at hstands
        cases hstands with
        | blockComment _ hcloses =>
          obtain ⟨front, rfl⟩ := hcloses.closes
          exact absurd rfl (hbody front [])
        | openComment _ => exact absurd hrest (by simp [h.2.1.source_ne_nil])
    subst hnil
    exact hclosed [] _ rfl ⟨body, rfl, hbody⟩

/-- The tokens of pieces stand in front of the tokens of the text that follows them. -/
theorem Fit.tokensFrom_append {ps : List Piece} {rest : List Char} (h : Fit ps rest)
    (before : List Char) :
    ∃ front, tokensOf before ps = front ++ [.bare .endOfFile (.ofPrefix (before ++ sources ps))] ∧
      Source.tokensFrom (.ofPrefix before) (sources ps ++ rest) =
        (Source.tokensFrom (.ofPrefix (before ++ sources ps)) rest).map (front ++ ·) := by
  induction ps generalizing before with
  | nil =>
    refine ⟨[], by simp [tokensOf], ?_⟩
    cases hscan : Source.tokensFrom (.ofPrefix before) rest <;> simp [hscan, Except.map]
  | cons p ps ih =>
    obtain ⟨front, htokens, hscan⟩ := ih h.2 (before ++ p.source)
    obtain ⟨c, cs, hcs⟩ : ∃ c cs, sources (p :: ps) ++ rest = c :: cs :=
      List.exists_cons_of_ne_nil (by simp [h.1.source_ne_nil])
    have hcut : Piece.cut c cs = .ok (p, sources ps ++ rest) :=
      Piece.cut_of_stands h.1 (by simpa using hcs)
    refine ⟨p.tokens (.ofPrefix before) ++ front, by simp [tokensOf, htokens], ?_⟩
    rw [hcs, Source.tokensFrom_of_cut_eq_ok hcut, Position.afterAll_ofPrefix, hscan, sources_cons,
      List.append_assoc]
    cases Source.tokensFrom (.ofPrefix (before ++ (p.source ++ sources ps))) rest <;>
      simp [Except.map]

/-! ## Texts before a line feed -/

/-- Inside this text a block comment starts, and it is not closed up to the end. -/
def EndsInComment (source : String) : Prop :=
  ∃ ps body, source.toList = sources ps ++ '/' :: '*' :: body ∧ Fit ps ('/' :: '*' :: body) ∧
    NeverCloses body

/-- **A line feed keeps apart what stands before and after it.** After a text that can be scanned
and does not end in an open comment, a line feed and a text `b` are scanned to
- the tokens of the first text, with a line feed in the place of its end of the file, and then the
  tokens of `b` in their columns, as many rows further down as the first text and the line feed
  have line feeds;
- the error of `b` at its column, as many lines further down, if `b` cannot be scanned. -/
theorem Source.tokens_lineFeed {a : String} {ts : List Token} (ha : tokens a = .ok ts)
    (hclosed : ¬ EndsInComment a) (b : String) :
    ∃ front position, ts = front ++ [.bare .endOfFile position] ∧
      tokens (a ++ "\n" ++ b) =
        match tokens b with
        | .ok us =>
          .ok (front ++ .bare .newline position :: us.map (·.down (1 + a.toList.count '\n')))
        | .error e => .error (e.down (1 + a.toList.count '\n')) := by
  obtain ⟨ps, hsource, hfit, rfl⟩ := tokens_eq_ok_iff.1 ha
  have hfit : Fit ps ('\n' :: b.toList) := by
    refine hfit.lineFeed (fun front p hps => ?_) b.toList
    rintro ⟨body, rfl, hbody⟩
    subst hps
    exact hclosed ⟨front, body, by simp [hsource, Piece.source], by
      simpa [Piece.source] using (fit_append.1 hfit).1, hbody⟩
  obtain ⟨front, htokens, hscan⟩ := hfit.tokensFrom_append []
  refine ⟨front, .ofPrefix a.toList, by simpa [hsource] using htokens, ?_⟩
  -- the line feed is a piece of its own, and `b` starts at the row after it
  have hcut : Piece.cut '\n' b.toList = .ok (.single '\n' .newline, b.toList) := rfl
  have hrow : tokensFrom (.ofPrefix (a.toList ++ ['\n'])) b.toList =
      down (1 + a.toList.count '\n') (tokens b) := by
    rw [Position.ofPrefix_lineFeed, tokensFrom_down]
    rfl
  have htext : (a ++ "\n" ++ b).toList = sources ps ++ '\n' :: b.toList := by simp [hsource]
  have hstart : Position.start = .ofPrefix [] := rfl
  rw [tokens, htext, hstart, hscan, List.nil_append, ← hsource, tokensFrom_of_cut_eq_ok hcut,
    Position.afterAll_ofPrefix]
  change (Except.map _ (tokensFrom (.ofPrefix (a.toList ++ ['\n'])) b.toList)).map _ = _
  rw [hrow]
  cases tokens b <;> rfl

/-- The line feed keeps an exponent from going on: `1e` before it and `+5` after it. -/
theorem Source.tokens_lineFeed_exponent :
    let before : List Token := [⟨.name, "size", ⟨1, 1⟩⟩, .bare .blank ⟨1, 5⟩,
      ⟨.integer, "1", ⟨1, 6⟩⟩, ⟨.name, "e", ⟨1, 7⟩⟩]
    let after : List Token := [.bare (.symbol .plus) ⟨1, 1⟩, ⟨.integer, "5", ⟨1, 2⟩⟩,
      .bare .endOfFile ⟨1, 3⟩]
    tokens "size 1e" = .ok (before ++ [.bare .endOfFile ⟨1, 8⟩]) ∧ ¬ EndsInComment "size 1e" ∧
      tokens "size 1e\n+5" = .ok (before ++ .bare .newline ⟨1, 8⟩ :: after.map (·.down 1)) := by
  intro before after
  have ha : tokens "size 1e" = .ok (before ++ [.bare .endOfFile ⟨1, 8⟩]) := by decide +kernel
  have hb : tokens "+5" = .ok after := by decide +kernel
  have hclosed : ¬ EndsInComment "size 1e" := by
    rintro ⟨ps, body, hsource, -, -⟩
    have hslash : '/' ∈ "size 1e".toList := by simp [hsource]
    exact absurd hslash (by decide)
  obtain ⟨front, position, hts, hrun⟩ := tokens_lineFeed ha hclosed "+5"
  obtain ⟨rfl, hposition⟩ := List.append_inj' hts rfl
  cases hposition
  rw [hb] at hrun
  exact ⟨ha, hclosed, hrun⟩

end MaterialScript
