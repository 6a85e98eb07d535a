/-
An outline written out is scanned into its words.

The pieces of each row stand where the gaps between them, and then the line
feed, follow; so the text has the tokens of its words (`exists_tokens_text`),
with blanks and tabs among them at places where they make no difference.
-/
import MaterialScript.Proofs.Outline
import MaterialScript.Proofs.Spacing

namespace MaterialScript

/-- What a token is, wherever it stands. -/
abbrev Word := TokenKind × String

def Token.word (t : Token) : Word := (t.kind, t.text)

/-- The word a lexeme makes. -/
def Piece.word : Piece → Word
  | .gap _ => (.unknown, "")
  | .lexeme _ kind text => (kind, String.ofList text)

namespace Outline

@[simp] theorem word_mark (s : Symbol) : (mark s).word = (.symbol s, "") := rfl

@[simp] theorem word_keyword (s : String) : (keyword s).word = (.name, s) := by
  simp [keyword, Piece.word]

@[simp] theorem Name.word_piece (n : Name) : n.piece.word = (.name, n.text) := rfl

@[simp] theorem TextLiteral.word_piece (t : TextLiteral) : t.piece.word = (.string, t.text) := rfl

@[simp] theorem NumberLiteral.word_piece (n : NumberLiteral) :
    n.piece.word = (n.kind, .ofList n.written) := rfl

/-! ## Words that can be written -/

/-- The words of outlines. -/
inductive Writable : Piece → Prop
  | word {cs : List Char} : isName cs → Writable (.lexeme cs .name cs)
  | text (t : TextLiteral) : Writable t.piece
  | number (n : NumberLiteral) : Writable n.piece
  | mark {s : Symbol} : s ≠ .slash → Writable (mark s)

/-- The characters that may follow a word. -/
def follows : List Char := [' ', '\n', ',']

theorem isName_cases {cs : List Char} (h : isName cs) :
    ∃ c more, cs = c :: more ∧ Piece.startsName c ∧ ∀ x ∈ more, Piece.continuesName x := by
  cases cs with
  | nil => cases h
  | cons c more =>
    obtain ⟨hc, hmore⟩ := Bool.and_eq_true_iff.1 h
    exact ⟨c, more, rfl, hc, by simpa using hmore⟩

namespace NumberLiteral

theorem exists_digit (n : NumberLiteral) : ∃ d ds, n.written = d :: ds ∧ d.isDigit := by
  obtain ⟨written, kind, hnumber⟩ := n
  cases hnumber with
  | intro hwhole =>
    obtain ⟨d, ds, rfl, hd, -⟩ := hwhole.exists_cons
    exact ⟨d, _, rfl, hd⟩

theorem kind_cases (n : NumberLiteral) : n.kind = .integer ∨ n.kind = .float := by
  obtain ⟨written, kind, hnumber⟩ := n
  cases hnumber with
  | intro =>
    show (if _ then TokenKind.integer else TokenKind.float) = _ ∨ _
    split
    · exact .inl rfl
    · exact .inr rfl

end NumberLiteral

namespace Writable

variable {p : Piece}

theorem stands (h : Writable p) {c : Char} (hc : c ∈ follows) (rest : List Char) :
    Stands p (c :: rest) := by
  simp only [follows, List.mem_cons, List.not_mem_nil, or_false] at hc
  cases h with
  | word hname =>
    obtain ⟨d, more, rfl, hstarts, hmore⟩ := isName_cases hname
    refine .name hstarts hmore fun x hx => ?_
    obtain rfl : c = x := by simpa using hx
    rcases hc with rfl | rfl | rfl <;> rfl
  | text t => exact .literal _ t.quoted
  | number n =>
    refine .number n.number ⟨?_, ?_, ?_⟩
    · rcases hc with rfl | rfl | rfl <;> simp [NoDigit]
    · rintro e more heq he
      obtain ⟨mark, after, rfl, hmark⟩ := he.exists_cons
      obtain ⟨rfl, -⟩ := List.cons_eq_cons.1 heq
      rcases hc with rfl | rfl | rfl <;> simp at hmark
    · rintro - f more heq ⟨-⟩
      obtain ⟨rfl, -⟩ := List.cons_eq_cons.1 heq
      simp at hc
  | mark hslash => exact .symbol fun h => absurd h hslash

/-- After an `@` and a minus anything may follow. -/
theorem stands_glued (h : Writable p) (hglued : p.source = ['@'] ∨ p.source = ['-'])
    (rest : List Char) : Stands p rest := by
  cases h with
  | word hname =>
    obtain ⟨d, more, rfl, hstarts, -⟩ := isName_cases hname
    rcases hglued with heq | heq <;> cases heq <;> cases hstarts
  | text t => simp [TextLiteral.piece, Piece.source] at hglued
  | number n =>
    obtain ⟨d, ds, hwritten, hd⟩ := n.exists_digit
    simp only [NumberLiteral.piece, Piece.source, hwritten] at hglued
    rcases hglued with heq | heq <;> cases heq <;> cases hd
  | mark hslash => exact .symbol fun h => absurd h hslash

/-- An `@` is known by how it is written. -/
theorem source_of_atSign (h : Writable p) (hword : p.word.1 = .symbol .atSign) :
    p.source = ['@'] := by
  cases h with
  | word => cases hword
  | text => cases hword
  | number n =>
    rcases n.kind_cases with hkind | hkind <;>
      simp [NumberLiteral.piece, Piece.word, hkind] at hword
  | mark hslash =>
    obtain rfl : _ = Symbol.atSign := by simpa [Outline.mark, Piece.word, Piece.single] using hword
    rfl

/-- No word ends a line. -/
theorem goesOn (h : Writable p) : p.word.1 ≠ .newline ∧ p.word.1 ≠ .endOfFile := by
  cases h with
  | number n => rcases n.kind_cases with hkind | hkind <;> simp [hkind]
  | _ => simp [Piece.word, TextLiteral.piece, Outline.mark, Piece.single]

theorem tokens (h : Writable p) (position : Position) :
    p.tokens position = [⟨p.word.1, p.word.2, position⟩] := by
  cases h <;> rfl

end Writable

/-! ## Rows -/

/-- Every word of the row can be written. -/
def Row.Writable (r : Row) : Prop := ∀ p ∈ r.words, Outline.Writable p

/-- The pieces of a row stand where the gaps between them and the line feed follow. -/
theorem fit_spread {ps : List Piece} (h : ∀ p ∈ ps, Writable p) (rest : List Char) :
    Fit (spread ps) rest := by
  fun_induction spread ps with
  | case1 => exact ⟨.newline _, trivial⟩
  | case2 p => exact ⟨(h p (by simp)).stands (c := '\n') (by simp [follows]) _, .newline _, trivial⟩
  | case3 p q ps ih =>
    have hp := h p (by simp)
    have hmore := ih fun x hx => h x (List.mem_cons_of_mem p hx)
    rw [gap]
    split
    · rename_i hgap
      refine ⟨?_, hmore⟩
      rcases hgap with hglued | hglued | hcomma
      · exact hp.stands_glued (.inl hglued) _
      · exact hp.stands_glued (.inr hglued) _
      · obtain ⟨more, hspread⟩ : ∃ more, spread (q :: ps) = q :: more := by
          cases ps <;> exact ⟨_, rfl⟩
        show Stands p (sources (spread (q :: ps)) ++ rest)
        rw [hspread, sources_cons, hcomma]
        exact hp.stands (c := ',') (by simp [follows]) _
    · exact ⟨hp.stands (c := ' ') (by simp [follows]) _, .blank _, hmore⟩

theorem fit_indent (depth : Nat) (rest : List Char) :
    Fit (List.replicate depth (.single '\t' .tab)) rest := by
  induction depth with
  | zero => trivial
  | succ depth ih => exact ⟨.tab _, ih⟩

theorem fit_rows {rs : List Row} (h : ∀ r ∈ rs, r.Writable) : Fit (rs.flatMap Row.pieces) [] := by
  induction rs with
  | nil => trivial
  | cons r rs ih =>
    rw [List.flatMap_cons, fit_append, Row.pieces, fit_append]
    exact ⟨⟨fit_indent _ _, fit_spread (h r (by simp)) _⟩,
      ih fun x hx => h x (List.mem_cons_of_mem r hx)⟩

/-! ## Tokens -/

/-- After the token `before`, the tokens `us` say the words `ws`, with blanks and tabs between
them where they make no difference. -/
def Says (before : Token) (us : List Token) (ws : List Word) : Prop :=
  ∃ ts, Spaced before ts us ∧ ts.map Token.word = ws

theorem Says.keep {before t : Token} {us : List Token} {ws : List Word} (h : Says t us ws) :
    Says before (t :: us) (t.word :: ws) := by
  obtain ⟨ts, hspaced, hwords⟩ := h
  exact ⟨t :: ts, .keep t hspaced, by rw [List.map_cons, hwords]⟩

theorem Says.space {before b : Token} {us : List Token} {ws : List Word} (hb : b.isSpace)
    (hbefore : before.isSymbol .atSign = false) (hws : ws ≠ []) (h : Says b us ws) :
    Says before (b :: us) ws := by
  obtain ⟨ts, hspaced, rfl⟩ := h
  exact ⟨ts, .space b hb hbefore (fun hnil => hws (by rw [hnil]; rfl)) hspaced, rfl⟩

/-- Wherever they start, the pieces say the words `ws`. -/
def Spell (ps : List Piece) (ws : List Word) : Prop :=
  ∀ before b, before.isSymbol .atSign = false → Says before (tokensOf b ps) ws

theorem says_spread {ps more : List Piece} {ws : List Word} (h : ∀ p ∈ ps, Writable p)
    (hmore : Spell more ws) (before : Token) (b : List Char) :
    Says before (tokensOf b (spread ps ++ more)) (ps.map Piece.word ++ (.newline, "") :: ws) := by
  fun_induction spread ps generalizing before b with
  | case1 => exact (hmore _ _ rfl).keep
  | case2 p =>
    rw [List.cons_append, tokensOf, (h p (by simp)).tokens]
    exact ((hmore _ _ rfl).keep).keep
  | case3 p q ps ih =>
    have hp := h p (by simp)
    have hnext := ih fun x hx => h x (List.mem_cons_of_mem p hx)
    rw [List.cons_append, List.cons_append, tokensOf, hp.tokens, gap]
    split
    · exact (hnext _ _).keep
    · rename_i hgap
      rw [not_or] at hgap
      refine Says.keep (Says.space rfl ?_ (by simp) (hnext _ _))
      simpa [Token.isSymbol] using mt hp.source_of_atSign hgap.1

theorem Spell.indent {ps : List Piece} {ws : List Word} (h : Spell ps ws) (hws : ws ≠ [])
    (depth : Nat) : Spell (List.replicate depth (.single '\t' .tab) ++ ps) ws := by
  induction depth with
  | zero => exact h
  | succ depth ih => exact fun before b hbefore => Says.space rfl hbefore hws (ih _ _ rfl)

/-- The words of rows, a line feed after each row. -/
def wordsOf (rs : List Row) : List Word :=
  rs.flatMap fun r => r.words.map Piece.word ++ [(.newline, "")]

@[simp] theorem wordsOf_append (rs rs' : List Row) :
    wordsOf (rs ++ rs') = wordsOf rs ++ wordsOf rs' :=
  List.flatMap_append

theorem wordsOf_flatMap {ι : Type} (parts : List ι) (f : ι → List Row) :
    wordsOf (parts.flatMap f) = parts.flatMap fun x => wordsOf (f x) :=
  List.flatMap_assoc

theorem wordsOf_block (depth : Nat) (header : List Piece) (body : List Row) :
    wordsOf (block depth header body) =
      header.map Piece.word ++ (.symbol .leftBrace, "") :: (.newline, "") ::
        (wordsOf body ++ [(.symbol .rightBrace, ""), (.newline, "")]) := by
  simp [wordsOf, block]

theorem spell_rows {rs : List Row} (h : ∀ r ∈ rs, r.Writable) :
    Spell (rs.flatMap Row.pieces) (wordsOf rs ++ [(.endOfFile, "")]) := by
  induction rs with
  | nil => exact fun before b _ => Says.keep ⟨[], .nil _, rfl⟩
  | cons r rs ih =>
    have hmore := ih fun x hx => h x (List.mem_cons_of_mem r hx)
    have hrow : Spell (spread r.words ++ rs.flatMap Row.pieces)
        (r.words.map Piece.word ++ (.newline, "") :: (wordsOf rs ++ [(.endOfFile, "")])) :=
      fun before b _ => says_spread (h r (by simp)) hmore before b
    have hindented := hrow.indent (by simp) r.depth
    simpa [Row.pieces, wordsOf] using hindented

/-! ## Brackets -/

end Outline

namespace Brackets

/-- Tokens with these words leave the brackets open before them as they are. -/
def Closed (ws : List Word) : Prop :=
  ∀ ts stack rest, ts.map Token.word = ws → checkAfter stack (ts ++ rest) = checkAfter stack rest

theorem closed_nil : Closed [] := by
  intro ts stack rest hts
  rw [List.map_eq_nil_iff.1 hts, List.nil_append]

theorem closed_singleton {w : Word}
    (h : ∀ s, w.1 = .symbol s → s.opens = false ∧ s.opener? = none) : Closed [w] := by
  intro ts stack rest hts
  obtain ⟨t, rfl, rfl⟩ := List.map_eq_singleton_iff.1 hts
  rw [List.singleton_append, checkAfter]
  unfold symbol?
  cases hkind : t.kind with
  | symbol s =>
    obtain ⟨hopens, hopener⟩ := h s hkind
    simp [hopens, hopener]
  | _ => rfl

theorem Closed.append {ws vs : List Word} (h : Closed ws) (h' : Closed vs) : Closed (ws ++ vs) := by
  intro ts stack rest hts
  obtain ⟨as, bs, rfl, has, hbs⟩ := List.map_eq_append_iff.1 hts
  rw [List.append_assoc, h as stack _ has, h' bs stack _ hbs]

theorem closed_of_forall {ws : List Word} (h : ∀ w ∈ ws, Closed [w]) : Closed ws := by
  induction ws with
  | nil => exact closed_nil
  | cons w ws ih =>
    exact (h w (by simp)).append (ih fun x hx => h x (List.mem_cons_of_mem w hx))

theorem Closed.block {ws : List Word} (h : Closed ws) :
    Closed ((.symbol .leftBrace, "") :: (ws ++ [(.symbol .rightBrace, "")])) := by
  intro ts stack rest hts
  obtain ⟨l, us, rfl, hl, hus⟩ := List.map_eq_cons_iff.1 hts
  obtain ⟨as, bs, rfl, has, hbs⟩ := List.map_eq_append_iff.1 hus
  obtain ⟨r, rfl, hr⟩ := List.map_eq_singleton_iff.1 hbs
  have hleft : symbol? l = some .leftBrace := by
    rw [symbol?, show l.kind = .symbol .leftBrace from congrArg Prod.fst hl]
  have hright : symbol? r = some .rightBrace := by
    rw [symbol?, show r.kind = .symbol .rightBrace from congrArg Prod.fst hr]
  have hopen : checkAfter stack (l :: (as ++ (r :: rest))) =
      checkAfter ((l, .leftBrace) :: stack) (as ++ r :: rest) := by
    rw [checkAfter, hleft]
    rfl
  have hclose : checkAfter ((l, .leftBrace) :: stack) (r :: rest) = checkAfter stack rest := by
    rw [checkAfter, hright]
    rfl
  rw [List.cons_append, List.append_assoc, List.singleton_append, hopen, h as _ _ has, hclose]

theorem Closed.check {ts : List Token} (h : Closed (ts.map Token.word)) : check ts = .ok () := by
  have hcheck := h ts [] [] rfl
  rwa [List.append_nil] at hcheck

end Brackets

namespace Outline

/-! ## Lines and blocks -/

/-- A word that is no bracket. -/
structure Plain (p : Piece) : Prop where
  writable : Writable p
  noBracket : ∀ s, p.word.1 = .symbol s → s.opens = false ∧ s.opener? = none

/-- Rows of plain words, and blocks with plain headers, one after another. -/
inductive Nested : List Row → Prop
  | nil : Nested []
  | line {depth : Nat} {words : List Piece} {rs : List Row} :
      (∀ p ∈ words, Plain p) → Nested rs → Nested (⟨depth, words⟩ :: rs)
  | block {depth : Nat} {header : List Piece} {body rs : List Row} :
      (∀ p ∈ header, Plain p) → Nested body → Nested rs → Nested (block depth header body ++ rs)

namespace Nested

theorem append {rs rs' : List Row} (h : Nested rs) (h' : Nested rs') : Nested (rs ++ rs') := by
  induction h with
  | nil => exact h'
  | line hwords _ ih => exact .line hwords ih
  | block hheader hbody _ _ ih =>
    rw [List.append_assoc]
    exact .block hheader hbody ih

theorem flatMap {ι : Type} {parts : List ι} {f : ι → List Row} (h : ∀ x, Nested (f x)) :
    Nested (parts.flatMap f) := by
  induction parts with
  | nil => exact .nil
  | cons x parts ih => exact (h x).append ih

theorem ofBlock {depth : Nat} {header : List Piece} {body : List Row}
    (hheader : ∀ p ∈ header, Plain p) (hbody : Nested body) :
    Nested (Outline.block depth header body) := by
  rw [← List.append_nil (Outline.block depth header body)]
  exact .block hheader hbody .nil

theorem writable {rs : List Row} (h : Nested rs) : ∀ r ∈ rs, r.Writable := by
  induction h with
  | nil => simp
  | line hwords _ ih => exact List.forall_mem_cons.2 ⟨fun p hp => (hwords p hp).writable, ih⟩
  | @block depth header body rs hheader _ _ ihbody ihrs =>
    have hbrace : ∀ s, s ≠ Symbol.slash → ∀ p ∈ [mark s], Writable p :=
      fun s hs => List.forall_mem_singleton.2 (.mark hs)
    have hopening : Row.Writable ⟨depth, header ++ [mark .leftBrace]⟩ :=
      List.forall_mem_append.2 ⟨fun p hp => (hheader p hp).writable, hbrace _ (by decide)⟩
    refine List.forall_mem_append.2 ⟨List.forall_mem_append.2 ⟨?_, ?_⟩, ihrs⟩
    · exact List.forall_mem_cons.2 ⟨hopening, ihbody⟩
    · exact List.forall_mem_singleton.2 (hbrace _ (by decide))

/-- The brackets of rows are closed in order. -/
theorem closed {rs : List Row} (h : Nested rs) : Brackets.Closed (wordsOf rs) := by
  have hplain : ∀ ps : List Piece, (∀ p ∈ ps, Plain p) → Brackets.Closed (ps.map Piece.word) := by
    intro ps hps
    refine Brackets.closed_of_forall fun w hw => ?_
    obtain ⟨p, hp, rfl⟩ := List.mem_map.1 hw
    exact Brackets.closed_singleton (hps p hp).noBracket
  have hnewline : Brackets.Closed [(.newline, "")] := Brackets.closed_singleton (by simp)
  induction h with
  | nil => exact Brackets.closed_nil
  | line hwords _ ih => exact ((hplain _ hwords).append hnewline).append ih
  | block hheader _ _ ihbody ihrs =>
    have hblock := (hplain _ hheader).append ((hnewline.append ihbody).block.append hnewline)
    simpa [wordsOf_block] using hblock.append ihrs

/-- The end of the file is no word of a row. -/
theorem goesOn {rs : List Row} (h : Nested rs) : ∀ w ∈ wordsOf rs, w.1 ≠ .endOfFile := by
  intro w hw
  obtain ⟨r, hr, hw⟩ := List.mem_flatMap.1 hw
  rcases List.mem_append.1 hw with hw | hw
  · obtain ⟨p, hp, rfl⟩ := List.mem_map.1 hw
    exact (h.writable r hr p hp).goesOn.2
  · rw [List.mem_singleton.1 hw]
    simp

end Nested

/-! ## Outlines -/

section Words

theorem Name.plain (n : Name) : Plain n.piece := ⟨.word n.proper, by simp⟩

theorem plain_keyword {s : String} (h : isName s.toList) : Plain (keyword s) :=
  ⟨.word h, by simp⟩

theorem TextLiteral.plain (t : TextLiteral) : Plain t.piece := ⟨.text t, by simp⟩

theorem NumberLiteral.plain (n : NumberLiteral) : Plain n.piece := by
  refine ⟨.number n, ?_⟩
  rcases n.kind_cases with hkind | hkind <;> simp [hkind]

theorem plain_mark {s : Symbol} (h : s ∈ [.comma, .plus, .minus, .equal, .atSign]) :
    Plain (mark s) := by
  simp only [List.mem_cons, List.not_mem_nil, or_false] at h
  rcases h with rfl | rfl | rfl | rfl | rfl <;> exact ⟨.mark (by decide), by simp; decide⟩

theorem plain_option {α : Type} {f : α → Piece} (hf : ∀ a, Plain (f a)) (o : Option α) :
    ∀ p ∈ (o.map f).toList, Plain p := by
  cases o with
  | none => simp
  | some a => simpa using hf a

theorem SignedLiteral.plain (v : SignedLiteral) : ∀ p ∈ v.pieces, Plain p := by
  refine List.forall_mem_append.2 ⟨?_, List.forall_mem_singleton.2 v.literal.plain⟩
  cases v.negated with
  | false => simp
  | true => exact List.forall_mem_singleton.2 (plain_mark (by decide))

theorem Setting.plain (v : Setting) : ∀ p ∈ v.pieces, Plain p := by
  cases v with
  | number v => exact v.plain
  | numbers first more =>
    refine List.forall_mem_append.2 ⟨first.plain, fun p hp => ?_⟩
    obtain ⟨v, -, hp⟩ := List.mem_flatMap.1 hp
    exact List.forall_mem_cons.2 ⟨plain_mark (by decide), v.plain⟩ p hp
  | flag b =>
    refine List.forall_mem_singleton.2 ?_
    cases b <;> exact plain_keyword (by decide)
  | word n => exact List.forall_mem_singleton.2 n.plain
  | texts first more =>
    refine List.forall_mem_cons.2 ⟨first.plain, fun p hp => ?_⟩
    obtain ⟨t, -, hp⟩ := List.mem_flatMap.1 hp
    exact List.forall_mem_cons.2 ⟨plain_mark (by decide), List.forall_mem_singleton.2 t.plain⟩ p hp

theorem plain_equalSign (equal : Bool) : ∀ p ∈ equalSign equal, Plain p := by
  cases equal with
  | false => simp [equalSign]
  | true => exact List.forall_mem_singleton.2 (plain_mark (by decide))

theorem Line.plain (l : Line) : ∀ p ∈ l.words, Plain p :=
  List.forall_mem_cons.2 ⟨l.key.plain,
    List.forall_mem_append.2 ⟨plain_equalSign l.equal, l.setting.plain⟩⟩

theorem Declaration.plain_header (d : Declaration) : ∀ p ∈ d.header, Plain p := by
  have hname := d.name.plain
  cases d with
  | shader name format dialects =>
    exact List.forall_mem_cons.2 ⟨plain_keyword (by decide),
      List.forall_mem_cons.2 ⟨hname, plain_option Name.plain format⟩⟩
  | textureLayer name word lines =>
    exact List.forall_mem_cons.2 ⟨plain_keyword (by decide),
      List.forall_mem_cons.2 ⟨hname, List.forall_mem_singleton.2 word.plain⟩⟩
  | _ =>
    exact List.forall_mem_cons.2 ⟨plain_keyword (by decide), List.forall_mem_singleton.2 hname⟩

end Words

section Rows

theorem nested_lines (lines : List Line) (depth : Nat) : Nested (lines.map (·.row depth)) := by
  induction lines with
  | nil => exact .nil
  | cons l lines ih => exact .line l.plain ih

theorem Stage.nested (s : Stage) : Nested s.rows :=
  .ofBlock (List.forall_mem_cons.2 ⟨s.word.plain, plain_option TextLiteral.plain s.entryPoint⟩)
    (nested_lines s.lines 3)

theorem Dialect.nested (d : Dialect) : Nested d.rows :=
  .ofBlock (List.forall_mem_singleton.2 d.word.plain) (.flatMap Stage.nested)

theorem Component.nested (c : Component) : Nested c.rows :=
  .ofBlock (List.forall_mem_cons.2 ⟨c.word.plain, plain_option TextLiteral.plain c.name⟩)
    (nested_lines c.lines 2)

theorem TextureItem.nested (i : TextureItem) : Nested i.rows := by
  cases i with
  | line l => exact .line l.plain .nil
  | filter lines =>
    exact .ofBlock (List.forall_mem_singleton.2 (plain_keyword (by decide))) (nested_lines lines 2)

theorem Declaration.nested_body (d : Declaration) : Nested d.body := by
  cases d with
  | material _ lines => exact nested_lines lines 1
  | shader _ _ dialects => exact .flatMap Dialect.nested
  | vertexFormat _ components => exact .flatMap Component.nested
  | texture _ items => exact .flatMap TextureItem.nested
  | textureLayer _ _ lines => exact nested_lines lines 1

theorem Entry.nested (e : Entry) : Nested e.rows := by
  cases e with
  | definition name value =>
    refine .line (List.forall_mem_cons.2 ⟨plain_mark (by decide), ?_⟩) .nil
    exact List.forall_mem_cons.2 ⟨name.plain,
      List.forall_mem_cons.2 ⟨plain_mark (by decide), value.plain⟩⟩
  | declaration d => exact .ofBlock d.plain_header d.nested_body

theorem nested_rows (entries : List Entry) : Nested (rows entries) := .flatMap Entry.nested

end Rows

/-- An outline written out can be scanned, and its tokens say its words. -/
theorem exists_tokens_text (entries : List Entry) :
    ∃ us, Source.tokens (text entries) = .ok us ∧
      Says Token.beforeFirst us (wordsOf (rows entries) ++ [(.endOfFile, "")]) := by
  have hwritable := (nested_rows entries).writable
  refine ⟨tokensOf [] ((rows entries).flatMap Row.pieces), ?_, spell_rows hwritable _ _ rfl⟩
  rw [Source.tokens, text, String.toList_ofList]
  exact Source.tokensFrom_of_fit (fit_rows hwritable) []

end Outline

end MaterialScript
