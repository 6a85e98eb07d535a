/-
Numbers as the scanner takes them.

At a digit the scanner takes the longest text that is made up of digits, a
fraction or none, and any number of exponents. It is a number if it has one
exponent at most, which is exactly when it denotes a value; otherwise it is
refused as a whole (`Source.tokens_number`). So no number of a script that
could be scanned is refused when it is read.
-/
import MaterialScript.Proofs.Acceptance
import MaterialScript.Proofs.LineFeeds
import MaterialScript.Proofs.Location

namespace MaterialScript

/-! ## The longest numeral -/

namespace Numeral

theorem numberEnds_nil (kind : TokenKind) : NumberEnds kind [] where
  digit := by simp [NoDigit]
  exponent e more heq he := by
    obtain ⟨rfl, -⟩ := List.append_eq_nil_iff.1 heq.symm
    cases he
  fraction _ f more heq hf := by
    obtain ⟨rfl, -⟩ := List.append_eq_nil_iff.1 heq.symm
    cases hf

/-- The parts of a numeral can be told from the way it is written. -/
theorem WellFormed.eq_of_lexeme_eq {m n : Numeral} (hm : m.WellFormed) (hn : n.WellFormed)
    (h : m.lexeme = n.lexeme) : m = n := by
  have hcut := hm.cut_eq (numberEnds_nil _)
  rw [h, hn.cut_eq (numberEnds_nil _)] at hcut
  exact (Prod.mk.inj hcut).1.symm

theorem flatten_prefix_cutExponents {es : List (List Char)} (h : ∀ e ∈ es, Exponent e)
    (more : List Char) : es.flatten <+: (cutExponents (es.flatten ++ more)).1.flatten := by
  induction es with
  | nil => exact List.nil_prefix
  | cons e es ih =>
    have he : Exponent e := h e (by simp)
    have hes : ∀ x ∈ es, Exponent x := fun x hx => h x (List.mem_cons_of_mem e hx)
    cases es with
    | nil =>
      rw [List.flatten_cons, List.append_assoc,
        cutExponents_of_some (cutExponent?_append_of_exponent he _)]
      simp
    | cons f es =>
      -- the mark of the next exponent ends this one
      have hdigit : NoDigit ((f :: es).flatten ++ more) := by
        rw [List.flatten_cons, List.append_assoc]
        exact (hes f (by simp)).noDigit _
      rw [List.flatten_cons, List.append_assoc,
        cutExponents_of_some (cutExponent?_of_exponent he hdigit), List.flatten_cons]
      exact (List.prefix_append_right_inj e).2 (ih hes)

/-- What is cut off reaches as far as any numeral at the front of the text. -/
theorem WellFormed.lexeme_prefix_cut {n : Numeral} (h : n.WellFormed) (more : List Char) :
    n.lexeme <+: (cut (n.lexeme ++ more)).1.lexeme := by
  obtain ⟨whole, fraction, exponents⟩ := n
  obtain ⟨hwhole, hfraction, hexponents⟩ := h
  have htext : lexeme ⟨whole, fraction, exponents⟩ ++ more =
      whole ++ (fraction ++ (exponents.flatten ++ more)) := by simp [lexeme]
  rw [htext]
  by_cases hes : exponents = []
  · subst hes
    rcases hfraction with rfl | hfraction
    · -- digits alone go on with the digits that follow
      simp only [cut, lexeme, List.nil_append, List.flatten_nil, List.append_nil,
        List.takeWhile_append_of_pos hwhole.digits, List.append_assoc]
      exact List.prefix_append _ _
    · obtain ⟨htake, hdrop⟩ := takeWhile_append_of_head hwhole.digits (hfraction.noDigit more)
      have hlong : Fraction (fraction ++ more.takeWhile Char.isDigit) :=
        hfraction.append fun _ hd => List.mem_takeWhile_imp hd
      have hcut := cutFraction_of_fraction hlong (noDigit_dropWhile more)
      rw [List.append_assoc, List.takeWhile_append_dropWhile] at hcut
      simp only [cut, lexeme, List.flatten_nil, List.append_nil, List.nil_append, htake, hdrop,
        hcut, List.append_assoc]
      rw [← List.append_assoc]
      exact List.prefix_append _ _
  · have hdigit : NoDigit (exponents.flatten ++ more) := by
      obtain ⟨e, es, rfl⟩ := List.exists_cons_of_ne_nil hes
      rw [List.flatten_cons, List.append_assoc]
      exact (hexponents e (by simp)).noDigit _
    obtain ⟨htake, hdrop⟩ :=
      takeWhile_append_of_head hwhole.digits (noDigit_fraction hfraction hdigit)
    have hcut := cutFraction_append_of_end hfraction hdigit
      fun _ => noFraction_flatten hexponents hes more
    simp only [cut, lexeme, htake, hdrop, hcut]
    exact (List.prefix_append_right_inj _).2 (flatten_prefix_cutExponents hexponents more)

end Numeral

/-! ## Numerals that denote a value -/

namespace Decimal

/-- A sign takes no other character away. -/
theorem mem_splitSign {c : Char} {cs : List Char} (hc : c ∈ cs) (hsign : c ≠ '+' ∧ c ≠ '-') :
    c ∈ (splitSign cs).2 := by
  unfold splitSign
  split <;> simp_all

/-- No exponent is read where a second one follows. -/
theorem readExponent?_of_two {d e : List Char} (hd : Exponent d) (he : Exponent e)
    (rest : List Char) : readExponent? (d ++ (e ++ rest)) = none := by
  obtain ⟨second, more, rfl, hsecond⟩ := he.exists_cons
  have hother : second ≠ '+' ∧ second ≠ '-' ∧ second.isDigit = false := by
    rcases hsecond with rfl | rfl <;> decide
  have hread : ∀ {mark : Char} {cs : List Char}, mark = 'e' ∨ mark = 'E' → second ∈ cs →
      readExponent? (mark :: cs) = none := by
    intro mark cs hmark hmem
    have hany : (splitSign cs).2.any (!·.isDigit) = true :=
      List.any_eq_true.2 ⟨second, mem_splitSign hmem ⟨hother.1, hother.2.1⟩, by simp [hother.2.2]⟩
    simp [readExponent?, hmark, hany]
  cases hd with
  | plain hmark => exact hread hmark (by simp)
  | signed hmark => exact hread hmark (by simp)

/-- A numeral denotes a value exactly if it has one exponent at most. -/
theorem isSome_read?_iff {n : Numeral} (h : n.WellFormed) :
    (read? (.ofList n.lexeme)).isSome ↔ n.exponents.length ≤ 1 := by
  have hdigit : NoDigit n.exponents.flatten := by
    simpa using Numeral.noDigit_flatten h.exponents (by simp [NoDigit] : NoDigit [])
  have hpoint : ∀ c ∈ n.exponents.flatten.head?, c ≠ '.' := by
    rcases hes : n.exponents with _ | ⟨e, es⟩
    · simp
    · obtain ⟨mark, more, rfl, hmark⟩ := (h.exponents e (by simp [hes])).exists_cons
      rcases hmark with rfl | rfl <;> simp
  rw [Numeral.lexeme, List.append_assoc, isSome_read?_eq h.whole h.fraction hdigit hpoint]
  rcases hes : n.exponents with _ | ⟨d, _ | ⟨e, es⟩⟩
  · simp [isSome_readExponent? (.inl rfl)]
  · have hd : Exponent d := h.exponents d (by simp [hes])
    simp [isSome_readExponent? (.inr hd)]
  · have hd : Exponent d := h.exponents d (by simp [hes])
    have he : Exponent e := h.exponents e (by simp [hes])
    rw [List.flatten_cons, List.flatten_cons, readExponent?_of_two hd he]
    simp

end Decimal

/-! ## Numbers of a script -/

namespace Source

/-- The number tokens of a script denote values. -/
theorem isSome_read?_of_tokens {source : String} {ts : List Token} (h : tokens source = .ok ts)
    {t : Token} (ht : t ∈ ts) (hkind : t.kind = .integer ∨ t.kind = .float) :
    (Decimal.read? t.text).isSome := by
  obtain ⟨before, rest, -, hstarts⟩ := tokens_startsAt h ht
  cases hstarts with
  | endOfFile => simp [Token.bare] at hkind
  | piece hstands htokens =>
    cases hstands with
    | carriageReturn | lineComment | blockComment | openComment => cases htokens
    | blank | tab | newline | symbol | name | literal => cases htokens; simp at hkind
    | number hnumber =>
      cases htokens
      exact Decimal.isSome_read? hnumber

end Source

/-- Reading finds no fault with the numbers of a script that could be scanned. -/
theorem Loader.readTokens_ne_invalidNumber {σ : Type} [RenderSystem σ] {l : Loader σ}
    {files : Files} {source : String} {ts : List Token} (hscan : Source.tokens source = .ok ts)
    {e : ScriptError} (h : (l.readTokens files ts).1 = .error e) (text : String) :
    e.fault ≠ .invalidNumber text := by
  obtain ⟨ps, -, hfit, rfl⟩ := Source.tokens_eq_ok_iff.1 hscan
  intro hfault
  rcases readTokens_failsAt (hfit.endsOnce []) h with rfl | ⟨t, ht, hfails, -, -⟩
  · cases hfault
  cases hfails with
  | bracket _ _ hbracket =>
    rw [hfault] at hbracket
    cases hbracket
  | reading _ _ _ hblamed =>
    rw [hfault] at hblamed
    rcases hblamed with hblamed | ⟨path, hload⟩
    · cases hblamed with
      | number hkind hnone =>
        have hsome := Source.isSome_read?_of_tokens hscan ht hkind
        rw [hnone] at hsome
        cases hsome
    · cases hload

/-- **Numbers are exactly delimited.** Where the scanner comes to a digit
- it takes the longest text that is made up of digits, a fraction or none, and any number of
  exponents, and the parts can be told from that text;
- with one exponent at most the text is a token, an integer if it has neither fraction nor
  exponent and a float otherwise, and scanning goes on behind it;
- with more the script is refused at the digit because of the whole text;
- what is refused is what has no value for the reader.

So reading finds no fault with the numbers of a script that could be scanned. -/
theorem Source.tokens_number (source : String) :
    (∀ ps c cs, source.toList = sources ps ++ c :: cs → Fit ps (c :: cs) → c.isDigit →
      ∃ (n : Numeral) (rest : List Char), n.WellFormed ∧ c :: cs = n.lexeme ++ rest ∧
        (∀ (m : Numeral) more, m.WellFormed → c :: cs = m.lexeme ++ more → m.lexeme <+: n.lexeme) ∧
        (∀ m : Numeral, m.WellFormed → m.lexeme = n.lexeme → m = n) ∧
        (n.exponents.length ≤ 1 → ∃ front,
          tokensOf [] ps = front ++ [.bare .endOfFile (.ofPrefix (sources ps))] ∧
          tokens source = (tokensFrom (.ofPrefix (sources ps ++ n.lexeme)) rest).map
            (front ++ ⟨if n.fraction = [] ∧ n.exponents = [] then .integer else .float,
              .ofList n.lexeme, .ofPrefix (sources ps)⟩ :: ·)) ∧
        (2 ≤ n.exponents.length → tokens source =
          .error (.placed (.ofPrefix (sources ps)) (.invalidNumber (.ofList n.lexeme)))) ∧
        ((Decimal.read? (.ofList n.lexeme)).isSome ↔ n.exponents.length ≤ 1)) ∧
    (∀ ts, tokens source = .ok ts → ∀ (σ : Type) [RenderSystem σ] (l : Loader σ) (files : Files) e,
      (l.readTokens files ts).1 = .error e → ∀ text, e.fault ≠ .invalidNumber text) := by
  refine ⟨fun ps c cs hsource hfit hc => ?_, fun ts hts σ _ l files e he text =>
    Loader.readTokens_ne_invalidNumber hts he text⟩
  rcases hcut : Numeral.cut (c :: cs) with ⟨n, rest⟩
  have htext : n.lexeme ++ rest = c :: cs := by
    have happend := Numeral.lexeme_append_cut (c :: cs)
    rwa [hcut] at happend
  obtain ⟨hformed, -⟩ := Numeral.wellFormed_of_cut hc hcut
  have hstart : Position.start = .ofPrefix [] := rfl
  obtain ⟨front, hfront, hscan⟩ := hfit.tokensFrom_append []
  rw [List.nil_append] at hfront hscan
  have hpiece : Piece.cut c cs = Piece.cutNumber (c :: cs) := Piece.cut_of_isDigit hc cs
  rw [Piece.cutNumber, hcut] at hpiece
  refine ⟨n, rest, hformed, htext.symm, fun m more hm hmore => ?_,
    fun m hm heq => hm.eq_of_lexeme_eq hformed heq, fun hfew => ?_, fun hmany => ?_,
    Decimal.isSome_read?_iff hformed⟩
  · have hlongest := hm.lexeme_prefix_cut more
    rwa [← hmore, hcut] at hlongest
  · have hvalue : n.isValue = true := by simpa [Numeral.isValue] using hfew
    simp only [hvalue, if_true] at hpiece
    refine ⟨front, hfront, ?_⟩
    rw [tokens, hsource, hstart, hscan, tokensFrom_of_cut_eq_ok hpiece, Position.afterAll_ofPrefix]
    have hkind : (if n.isInteger = true then TokenKind.integer else .float) =
        if n.fraction = [] ∧ n.exponents = [] then .integer else .float := by
      simp [Numeral.isInteger]
    simp only [Piece.source, Piece.tokens, hkind]
    cases tokensFrom (.ofPrefix (sources ps ++ n.lexeme)) rest <;> simp [Except.map]
  · have hvalue : n.isValue = false := by simpa [Numeral.isValue] using Nat.lt_of_succ_le hmany
    simp only [hvalue, Bool.false_eq_true, if_false] at hpiece
    rw [tokens, hsource, hstart, hscan]
    exact congrArg _ (tokensFrom_of_cut_eq_error hpiece _)

/-- Two exponents: both are taken, and the script is refused. -/
theorem Source.tokens_number_two_exponents :
    let ps : List Piece := [.lexeme ['x'] .name ['x'], .single ' ' .blank]
    Fit ps "1.5e3E-2".toList ∧ '1'.isDigit ∧
      tokens "x 1.5e3E-2" = .error (.placed ⟨1, 3⟩ (.invalidNumber "1.5e3E-2")) := by
  intro ps
  have hfit : Fit ps "1.5e3E-2".toList :=
    ⟨.name rfl (by simp) (by rintro _ ⟨⟩; rfl), .blank _, trivial⟩
  refine ⟨hfit, rfl, ?_⟩
  have hdigits : ∀ d : Char, d.isDigit → Digits [d] := fun d hd => ⟨by simp, by simpa using hd⟩
  let m : Numeral := ⟨['1'], ['.', '5'], [['e', '3'], ['E', '-', '2']]⟩
  have hm : m.WellFormed := by
    refine ⟨hdigits _ rfl, .inr (.point (hdigits _ rfl)), fun e he => ?_⟩
    rcases List.mem_pair.1 he with rfl | rfl
    · exact .plain (.inl rfl) (hdigits _ rfl)
    · exact .signed (.inr rfl) (.inr rfl) (hdigits _ rfl)
  obtain ⟨n, rest, -, htext, hlongest, hparts, -, hrefused, -⟩ :=
    (Source.tokens_number "x 1.5e3E-2").1 ps '1' _ rfl hfit rfl
  -- the numeral is the whole text, so it is `m`
  have hreach : m.lexeme <+: n.lexeme := hlongest m [] hm rfl
  have hlength : m.lexeme.length = n.lexeme.length + rest.length := by
    rw [← List.length_append, ← htext]
    rfl
  have hsame : m = n := hparts m hm (hreach.eq_of_length_le (by omega))
  subst hsame
  exact hrefused (by decide)

end MaterialScript
