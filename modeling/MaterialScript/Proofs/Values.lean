/-
What the readers of values pass.

No value holds a brace (`ReadsPlain`). A variable definition passes one line
(`OneLine`): words among which no string follows a name, and at most one token
more, which ends the line.
-/
import Mathlib.Data.List.Chain
import MaterialScript.Proofs.Reading

namespace MaterialScript.Parser

variable {ρ α β : Type} {m : Bool}

/-! ## Values -/

theorem accept_plain {symbol : Symbol} (hleft : symbol ≠ .leftBrace)
    (hright : symbol ≠ .rightBrace) :
    ReadsPlain m (accept symbol : Parser ρ Bool) := by
  refine (Reads.accept symbol).mono fun b vs h => ?_
  cases b with
  | true =>
    obtain ⟨t, ht, rfl⟩ := h
    have hkind : t.kind = .symbol symbol := by simpa [Token.isSymbol] using ht
    exact .singleton (by simp [Token.isBrace, Token.isSymbol, hkind, hleft, hright])
  | false =>
    have hnone : vs = [] := h
    rw [hnone]
    exact .nil

theorem variableName_plain : ReadsPlain m (variableName : Parser ρ String) := by
  refine Reads.variableName.mono fun _ vs h => ?_
  obtain ⟨t, ht, rfl⟩ := h
  exact .singleton (by simp [Token.isBrace, Token.isSymbol, ht])

theorem numeral_plain (t : Token) : ReadsPlain m (numeral t : Parser ρ Float) := by
  unfold numeral
  split
  · exact .pure _
  · exact .failAt _ _

theorem magnitude_plain (t : Token) : ReadsPlain m (magnitude t : Parser ρ Float) := by
  unfold magnitude
  split
  · exact numeral_plain t
  · exact numeral_plain t
  · exact .bind variableName_plain fun _ => .bind (.consult _) fun _ => .bind (.note _) fun _ =>
      .pure _
  · exact .unexpectedName t
  · exact .unexpected t

theorem magnitude_refuses {t : Token} (h : t.isBrace) :
    Refuses (magnitude t : Parser ρ Float) := by
  rcases kind_of_isBrace h with hkind | hkind
  · simpa [magnitude, hkind] using Refuses.unexpected t
  · simpa [magnitude, hkind] using Refuses.unexpected t

theorem signedNumber_plain (t : Token) : ReadsPlain m (signedNumber t : Parser ρ Float) := by
  unfold signedNumber
  split
  · exact .bind_token .nextOne (fun t => .bind (magnitude_plain t) fun _ => .pure _)
      fun t ht => (magnitude_refuses ht).bind _
  · exact magnitude_plain t

theorem signedNumber_refuses {t : Token} (h : t.isBrace) :
    Refuses (signedNumber t : Parser ρ Float) := by
  have hminus : t.isSymbol .minus = false := by
    rcases kind_of_isBrace h with hkind | hkind <;> simp [Token.isSymbol, hkind]
  simpa [signedNumber, hminus] using magnitude_refuses h

theorem optionalEqual_plain : ReadsPlain m (optionalEqual : Parser ρ Unit) :=
  .bind (accept_plain (by decide) (by decide)) fun _ => .pure ()

theorem number_plain : ReadsPlain m (number : Parser ρ Float) :=
  .bind optionalEqual_plain fun _ =>
    .bind_token .nextOne signedNumber_plain fun _ => signedNumber_refuses

theorem word_plain : ReadsPlain m (word : Parser ρ String) := by
  refine .bind optionalEqual_plain fun _ => .bind_token .nextOne (fun t => ?_) fun t ht => ?_
  · split
    · exact .pure _
    · exact .unexpected t
  · have hkind : t.kind ≠ .name := by
      rcases kind_of_isBrace ht with hkind | hkind <;> simp [hkind]
    simpa [hkind] using Refuses.unexpected t

theorem flag_plain : ReadsPlain m (flag : Parser ρ Bool) := by
  refine .bind optionalEqual_plain fun _ => .bind_token .nextOne (fun t => ?_) fun t ht => ?_
  · split
    · exact .pure _
    split
    · exact .pure _
    split
    · exact .unexpectedName t
    · exact .unexpected t
  · have hkind : t.kind ≠ .name := by
      rcases kind_of_isBrace ht with hkind | hkind <;> simp [hkind]
    simpa [Token.isName, hkind] using Refuses.unexpected t

theorem keyword_plain (vocabulary : Vocabulary α) :
    ReadsPlain m (keyword vocabulary : Parser ρ α) :=
  .bind word_plain fun _ => .bind (.note _) fun _ => .pure _

theorem textTerm_plain (t : Token) : ReadsPlain m (textTerm t : Parser ρ String) := by
  unfold textTerm
  split
  · exact .pure _
  · exact .bind variableName_plain fun _ => .bind (.consult _) fun _ => .bind (.note _) fun _ =>
      .pure _
  · exact .failAt t _

theorem textTerm_refuses {t : Token} (h : t.isBrace) : Refuses (textTerm t : Parser ρ String) := by
  rcases kind_of_isBrace h with hkind | hkind
  · simpa [textTerm, hkind] using Refuses.failAt t _
  · simpa [textTerm, hkind] using Refuses.failAt t _

/-- Terms that hold no braces, with a separator that is none. -/
theorem separated_plain {separator : Symbol} (hleft : separator ≠ .leftBrace)
    (hright : separator ≠ .rightBrace) {term : Token → Parser ρ α}
    (hterm : ∀ t, ReadsPlain m (term t)) (hbrace : ∀ t, t.isBrace → Refuses (term t)) :
    ReadsPlain m (separated separator term) :=
  .overTokens
    (fun _ t => .bind (hterm t) fun _ => .bind (accept_plain hleft hright) fun _ => .pure _)
    (fun _ t ht => (hbrace t ht).bind _) (fun _ t => .failAt t _) _

theorem text_plain : ReadsPlain m (text : Parser ρ String) :=
  .withLineBreaks (.bind optionalEqual_plain fun _ => .bind
    (separated_plain (by decide) (by decide) textTerm_plain fun _ => textTerm_refuses) fun _ =>
    .pure _)

theorem color_plain : ReadsPlain m (color : Parser ρ Color) :=
  .withLineBreaks (.bind optionalEqual_plain fun _ => .bind
    (separated_plain (by decide) (by decide) signedNumber_plain fun _ => signedNumber_refuses)
    fun _ => .pure _)

theorem nameOrText_plain : ReadsPlain m (nameOrText : Parser ρ String) := by
  refine .bind optionalEqual_plain fun _ => .bind .peek fun t => ?_
  split
  · exact text_plain
  · exact text_plain
  · exact word_plain

theorem Attribute.read_plain (a : Attribute β) : ReadsPlain m (a.read : Parser ρ (β → β)) := by
  cases a with
  | color set => exact .bind color_plain fun _ => .pure _
  | number set => exact .bind number_plain fun _ => .pure _
  | flag set => exact .bind flag_plain fun _ => .pure _
  | text set => exact .bind text_plain fun _ => .pure _
  | keyword changes => exact keyword_plain changes

theorem Attribute.readLine_plain (attributes : Attributes β) (t : Token) :
    ReadsPlain m (Attribute.readLine attributes t : Parser ρ (β → β)) := by
  unfold Attribute.readLine
  split
  · exact Attribute.read_plain _
  · exact .unexpectedName t

/-! ## Variable definitions -/

/-- Words of one line among which no string follows a name. -/
structure Quiet (ts : List Token) : Prop where
  chain : ts.IsChain fun t u => t.kind = .name → u.kind ≠ .string
  within : ∀ t ∈ ts, t.endsLine = false ∧ t.isBrace = false

/-- Nothing, or the token that ends a line. -/
def LineEnd (ts : List Token) : Prop := ts = [] ∨ ∃ e, e.endsLine ∧ ts = [e]

/-- Words up to the end of a line. -/
def OneLine (ts : List Token) : Prop :=
  ∃ words ending, ts = words ++ ending ∧ Quiet words ∧ (∀ t ∈ words.head?, t.kind ≠ .string) ∧
    LineEnd ending

theorem Quiet.singleton {t : Token} (hline : t.endsLine = false) (hbrace : t.isBrace = false) :
    Quiet [t] :=
  ⟨.singleton t, by simp [hline, hbrace]⟩

/-- A word that is no name may stand before anything. -/
theorem Quiet.cons {t : Token} {ts : List Token} (h : Quiet ts) (hline : t.endsLine = false)
    (hbrace : t.isBrace = false) (hname : t.kind ≠ .name) : Quiet (t :: ts) where
  chain := by
    rw [List.isChain_cons]
    exact ⟨fun u _ hkind => absurd hkind hname, h.chain⟩
  within := by
    intro u hu
    rcases List.mem_cons.1 hu with rfl | hu
    · exact ⟨hline, hbrace⟩
    · exact h.within u hu

/-- What starts with no string may stand after anything. -/
theorem Quiet.append {ts us : List Token} (hts : Quiet ts) (hus : Quiet us)
    (hhead : ∀ t ∈ us.head?, t.kind ≠ .string) : Quiet (ts ++ us) where
  chain := List.isChain_append.2 ⟨hts.chain, hus.chain, fun _ _ u hu _ => hhead u hu⟩
  within := by
    intro u hu
    rcases List.mem_append.1 hu with hu | hu
    · exact hts.within u hu
    · exact hus.within u hu

theorem Quiet.of_isSymbol {t : Token} {ts : List Token} (h : Quiet ts) {symbol : Symbol}
    (ht : t.isSymbol symbol) (hleft : symbol ≠ .leftBrace) (hright : symbol ≠ .rightBrace) :
    Quiet (t :: ts) := by
  have hkind : t.kind = .symbol symbol := by simpa [Token.isSymbol] using ht
  exact h.cons (by simp [Token.endsLine, hkind])
    (by simp [Token.isBrace, Token.isSymbol, hkind, hleft, hright]) (by simp [hkind])

theorem Quiet.oneLine {words ending : List Token} (h : Quiet words)
    (hhead : ∀ t ∈ words.head?, t.kind ≠ .string) (hending : LineEnd ending) :
    OneLine (words ++ ending) :=
  ⟨words, ending, rfl, h, hhead, hending⟩

theorem OneLine.plain {ts : List Token} (h : OneLine ts) : Braces.Plain ts := by
  obtain ⟨words, ending, rfl, hwords, -, hending⟩ := h
  refine .append (fun t ht => (hwords.within t ht).2) ?_
  rcases hending with rfl | ⟨e, he, rfl⟩
  · exact .nil
  · exact .singleton (Token.isBrace_of_endsLine he)

/-- One line does not reach over a line break to the end of the next line. -/
theorem OneLine.of_append {ts : List Token} {t u : Token} (h : OneLine (ts ++ [t, u])) :
    t.endsLine = false ∨ u.endsLine = false := by
  obtain ⟨words, ending, hwords, hquiet, -, hending⟩ := h
  rcases hending with rfl | ⟨e, -, rfl⟩
  · right
    refine (hquiet.within u ?_).1
    rw [← List.append_nil words, ← hwords]
    simp
  · left
    rw [List.append_cons] at hwords
    obtain ⟨hinner, -⟩ := List.append_inj' hwords rfl
    refine (hquiet.within t ?_).1
    rw [← hinner]
    simp

/-- A term and what is read of it, from its first token on. -/
theorem operand_reads (unbound : Value) (t : Token) :
    Reads m (operand unbound t : Parser ρ Value) fun _ vs => Quiet (t :: vs) := by
  -- a term of one token
  have one : ∀ {p : Parser ρ Value}, (t.kind = .integer ∨ t.kind = .float ∨ t.kind = .string) →
      Stays p → Reads m p fun _ vs => Quiet (t :: vs) := by
    intro p hkind hstays
    refine .stays hstays fun _ => .singleton ?_ ?_
    · rcases hkind with hkind | hkind | hkind <;> simp [Token.endsLine, hkind]
    · rcases hkind with hkind | hkind | hkind <;> simp [Token.isBrace, Token.isSymbol, hkind]
  have numeral_stays : Stays (numeral t : Parser ρ Float) := by
    intro s
    unfold numeral
    split <;> rfl
  unfold operand
  split
  · rename_i hkind
    exact one (.inl hkind) (numeral_stays.bind fun _ _ => rfl)
  · rename_i hkind
    exact one (.inr (.inl hkind)) (numeral_stays.bind fun _ _ => rfl)
  · rename_i hkind
    exact one (.inr (.inr hkind)) fun _ => rfl
  · rename_i hkind
    have hat : t.isSymbol .atSign := by simp [Token.isSymbol, hkind]
    refine .bind Reads.variableName fun name => .bind_stays (fun _ => rfl) fun found => ?_
    refine .stays (fun s => ?_) fun _ us hus => ?_
    · split <;> rfl
    · obtain ⟨n, hn, rfl⟩ := hus
      refine Quiet.of_isSymbol (.singleton ?_ ?_) hat (by decide) (by decide)
      · simp [Token.endsLine, hn]
      · simp [Token.isBrace, Token.isSymbol, hn]
  · exact .failAt t _

theorem termOnLine_reads :
    Reads m (termOnLine : Parser ρ Token) fun t vs => vs = [t] := by
  refine .bind .next fun t => ?_
  split
  · exact .unexpected t
  · exact .pure fun us hus => by rw [hus.2]; rfl

theorem endOfNumber_reads :
    Reads m (endOfNumber : Parser ρ Unit) fun _ vs => LineEnd vs := by
  refine .bind (.take true) fun t => ?_
  split
  · rename_i hline
    refine .pure fun us hus => ?_
    rcases hus with ⟨-, hus⟩ | ⟨rfl, -⟩
    · rw [hus rfl]
      exact .inr ⟨t, hline, rfl⟩
    · exact .inl rfl
  · split
    · exact .failAt t _
    · exact .failAt t _

theorem joined_reads {plus : Token} (hplus : plus.isSymbol .plus) :
    Reads m (joined : Parser ρ String) fun _ vs => Quiet (plus :: vs) := by
  refine .bind termOnLine_reads fun t => ?_
  split
  · exact .failAt t _
  · refine .bind (operand_reads _ t) fun value => ?_
    split
    · refine .pure fun us hus ts hts => ?_
      rw [hts, List.append_nil]
      exact hus.of_isSymbol hplus (by decide) (by decide)
    · exact .failAt t _

theorem restOfText_reads (first : String) :
    Reads m (restOfText first : Parser ρ String) fun _ vs => OneLine vs := by
  refine .overTokens
    (I := fun _ us => Quiet us ∧ ∀ t ∈ us.head?, t.kind ≠ .string)
    (fun text t us hus _ => ?_) (fun text t us hus heof => ?_) ⟨⟨.nil, by simp⟩, by simp⟩
  · split
    · rename_i hline
      exact .pure (hus.1.oneLine hus.2 (.inr ⟨t, hline, rfl⟩))
    split
    · rename_i hplus
      have hkind : t.kind = .symbol .plus := by simpa [Token.isSymbol] using hplus
      refine .bind (joined_reads hplus) fun text => .pure fun vs hvs => ?_
      rw [List.append_nil]
      refine ⟨hus.1.append hvs (by simp [hkind]), ?_⟩
      cases us with
      | nil => simp [hkind]
      | cons u us => exact hus.2
    · exact .failAt t _
  · have hline : t.endsLine := Token.endsLine_of_isEndOfFile heof
    exact .pure ⟨hus.1.oneLine hus.2 (.inl rfl), hus.1.oneLine hus.2 (.inr ⟨t, hline, rfl⟩)⟩

/-- An initializer after the `=` that precedes it. -/
theorem initializer_reads {equal : Token} (hequal : equal.isSymbol .equal) :
    Reads m (initializer : Parser ρ Value) fun _ vs => OneLine (equal :: vs) := by
  have hkind : equal.kind = .symbol .equal := by simpa [Token.isSymbol] using hequal
  have hhead : ∀ ts, ∀ t ∈ (equal :: ts).head?, t.kind ≠ .string := by simp [hkind]
  refine .bind (.take true) fun t => ?_
  split
  · exact .failAt t _
  rename_i hline
  -- the token just read is not the end of the file read again
  have hread : ∀ us, (us = visible m [t] ∧ (true = true → us = [t])) ∨ (us = [] ∧ t.isEndOfFile) →
      us = [t] := by
    rintro us (⟨-, hus⟩ | ⟨-, heof⟩)
    · exact hus rfl
    · exact absurd (Token.endsLine_of_isEndOfFile heof) hline
  split
  · rename_i hminus
    refine .bind termOnLine_reads fun u => .bind (operand_reads _ u) fun value => ?_
    split
    · refine .bind endOfNumber_reads fun _ => .pure fun ending hending vs hvs us hus ts hts => ?_
      rw [hread ts hts, hus, List.append_nil]
      exact ((hvs.of_isSymbol hminus (by decide) (by decide)).of_isSymbol hequal (by decide)
        (by decide)).oneLine (hhead _) hending
    · exact .failAt u _
  · refine .bind (operand_reads _ t) fun value => ?_
    split
    · refine .bind endOfNumber_reads fun _ => .pure fun ending hending vs hvs us hus => ?_
      rw [hread us hus, List.append_nil]
      exact (hvs.of_isSymbol hequal (by decide) (by decide)).oneLine (hhead _) hending
    · refine .bind (restOfText_reads _) fun _ => .pure fun rest hrest vs hvs us hus => ?_
      obtain ⟨words, ending, rfl, hwords, hword, hending⟩ := hrest
      rw [hread us hus, List.append_nil]
      have hquiet := (hvs.append hwords hword).of_isSymbol hequal (by decide) (by decide)
      simpa using hquiet.oneLine (hhead _) hending

/-- A variable definition keeps to its line. -/
theorem definitionLine_reads :
    Reads m (definitionLine : Parser ρ Unit) fun _ vs => OneLine vs := by
  refine .bind .variableName fun name => .bind_stays (fun _ => rfl) fun bound => ?_
  refine .bind_stays (.noteIf _ _) fun _ => .bind .next fun t => ?_
  split
  · rename_i hequal
    refine .bind (initializer_reads hequal) fun value => .stays (fun _ => rfl) ?_
    rintro _ vs ⟨words, ending, hvs, hwords, -, hending⟩ us ⟨-, rfl⟩ ts ⟨n, hn, rfl⟩
    have hname : n.kind ≠ .string := by simp [hn]
    cases words with
    | nil =>
      rcases hending with rfl | ⟨e, he, rfl⟩
      · cases hvs
      · cases hvs
        have hkind : t.kind = .symbol .equal := by simpa [Token.isSymbol] using hequal
        simp [Token.endsLine, hkind] at he
    | cons word words =>
      have hfirst : word = t := by simpa using (congrArg List.head? hvs).symm
      have hquiet : Quiet [n] := .singleton (by simp [Token.endsLine, hn])
        (by simp [Token.isBrace, Token.isSymbol, hn])
      have hkind : word.kind = .symbol .equal := by
        rw [hfirst]
        simpa [Token.isSymbol] using hequal
      have := (hquiet.append hwords (by simp [hkind])).oneLine (by simpa using hname) hending
      simpa [hvs] using this
  · exact .failAt t _

theorem variableDefinition_plain : ReadsPlain m (variableDefinition : Parser ρ Unit) :=
  .withLineBreaks (definitionLine_reads.mono fun _ _ => OneLine.plain)

end MaterialScript.Parser
