/-
What the parsers of blocks do on words they accept.

An attribute takes every line whose value is of its kind (`attribute_takes`),
and each kind of block the lines and blocks that belong into it. The scene
matters in three places only: a block leads from `P` to `P` if its lines do
(`Kept`), the lines of a stage have given a version (`Versioned`), and those of
a texture have named no image file but known ones (`NamesOneOf`).
-/
import MaterialScript.Proofs.Acceptance
import MaterialScript.Proofs.Closing
import MaterialScript.Proofs.SceneChange

namespace MaterialScript

open Outline

/-! ## Attributes -/

theorem mem_of_lookup {α : Type} {entries : List (String × α)} {key : String} {a : α}
    (h : entries.lookup key = some a) : (key, a) ∈ entries := by
  obtain ⟨front, back, rfl, -⟩ := List.lookup_eq_some_iff.1 h
  simp

namespace Attribute

variable {β γ ρ : Type}

/-- The kind of values that the lines of an attribute hold. -/
def valueKind : Attribute β → ValueKind
  | color _ => .color
  | number _ => .number
  | flag _ => .flag
  | text _ => .text
  | keyword changes => .of changes

/-- The change a line makes whose value is this setting. -/
def Makes : Attribute β → Setting → (β → β) → Prop
  | color set, .numbers first more, change => change = set (Parser.colorOf first more)
  | number set, .number v, change => change = set v.value
  | flag set, .flag b, change => change = set b
  | text set, .texts first more, change => change = set (Setting.joined first more)
  | keyword changes, .word n, change => changes.find? n.text = some change
  | _, _, _ => False

/-- No line of the attribute changes what `f` tells. -/
def Keeps (f : β → γ) : Attribute β → Prop
  | color set => ∀ c b, f (set c b) = f b
  | number set => ∀ v b, f (set v b) = f b
  | flag set => ∀ v b, f (set v b) = f b
  | text set => ∀ s b, f (set s b) = f b
  | keyword changes => ∀ e ∈ changes.words, ∀ b, f (e.2 b) = f b

theorem keeps_ofVocabulary {α : Type} {f : β → γ} {vocabulary : Vocabulary α} {set : α → β → β}
    (h : ∀ v b, f (set v b) = f b) : (ofVocabulary vocabulary set).Keeps f := by
  intro e he
  obtain ⟨x, -, rfl⟩ := List.mem_map.1 he
  exact h x.2

theorem Makes.keeps {f : β → γ} {a : Attribute β} {v : Setting} {change : β → β}
    (h : a.Makes v change) (hf : a.Keeps f) (b : β) : f (change b) = f b := by
  cases a with
  | keyword changes =>
    cases v with
    | word n => exact hf (n.text, change) (mem_of_lookup h) b
    | _ => cases h
  | _ =>
    cases v with
    | numbers | number | flag | texts => first | cases h; exact hf _ b | cases h
    | word => cases h

/-- The keys of a block with simple lines. -/
def keys (attributes : Attributes β) : Keys := attributes.map fun (key, a) => (key, a.valueKind)

end Attribute

namespace Parser

variable {β ρ : Type} {P : ρ → Prop} {rest : List Word}

theorem attribute_takes {a : Attribute β} {v : Setting} (h : v.Is a.valueKind) (equal : Bool) :
    Takes false P (settingWords equal v ++ (.newline, "") :: rest) a.read
      (fun change r => a.Makes v change ∧ P r) ((.newline, "") :: rest) := by
  cases a with
  | color set =>
    cases v with
    | numbers first more => exact (color_takes equal first more).map fun c hc => by rw [hc]; rfl
    | _ => cases h
  | number set =>
    cases v with
    | number v => exact (number_takes equal v).map fun x hx => by rw [hx]; rfl
    | _ => cases h
  | flag set =>
    cases v with
    | flag b => exact (flag_takes equal b).map fun x hx => by rw [hx]; rfl
    | _ => cases h
  | text set =>
    cases v with
    | texts first more => exact (text_takes equal first more).map fun s hs => by rw [hs]; rfl
    | _ => cases h
  | keyword changes =>
    cases v with
    | word n =>
      obtain ⟨change, hfind⟩ : ∃ change, changes.find? n.text = some change :=
        Option.isSome_iff_exists.1 ((Catalog.isSome_lookup_iff changes.words n.text).2 h)
      refine (keyword_takes equal hfind).mono (fun _ hP => hP) fun x r hx => ⟨?_, hx.2⟩
      rw [hx.1]
      exact hfind
    | _ => cases h

theorem readLine_takes (attributes : Attributes β) {l : Line}
    (h : l.Fits (Attribute.keys attributes)) {t : Token} (ht : t.text = l.key.text) :
    Takes false P (settingWords l.equal l.setting ++ (.newline, "") :: rest)
      (Attribute.readLine attributes t)
      (fun change r =>
        (∃ a, attributes.lookup l.key.text = some a ∧ a.Makes l.setting change) ∧ P r)
      ((.newline, "") :: rest) := by
  obtain ⟨kind, hkind, his⟩ := h
  rw [Attribute.keys, Vocabulary.lookup_map, Option.map_eq_some_iff] at hkind
  obtain ⟨a, ha, rfl⟩ := hkind
  rw [Attribute.readLine, ht, ha]
  exact (attribute_takes his l.equal).mono (fun _ hP => hP) fun change r h => ⟨⟨a, rfl, h.1⟩, h.2⟩

end Parser

/-! ## Blocks -/

namespace Outline

theorem wordsOf_row (depth : Nat) (l : Line) :
    wordsOf [l.row depth] =
      (.name, l.key.text) :: Parser.settingWords l.equal l.setting ++ [(.newline, "")] := by
  simp [wordsOf, Line.row, Line.words, Parser.settingWords]

/-- The words of a block from its header on, up to and with the closing brace. -/
def blockWords (header : List Piece) (body : List Row) : List Word :=
  header.map Piece.word ++ (.symbol .leftBrace, "") :: (.newline, "") ::
    (wordsOf body ++ [(.symbol .rightBrace, "")])

theorem blockWords_append (header : List Piece) (body : List Row) (rest : List Word) :
    blockWords header body ++ rest =
      header.map Piece.word ++ (.symbol .leftBrace, "") :: (.newline, "") ::
        (wordsOf body ++ (.symbol .rightBrace, "") :: rest) := by
  simp [blockWords]

theorem blockWords_cons (p : Piece) (header : List Piece) (body : List Row) :
    blockWords (p :: header) body = p.word :: blockWords header body := rfl

theorem wordsOf_namedBlock (depth : Nat) (n : Name) (header : List Piece) (body : List Row) :
    wordsOf (block depth (n.piece :: header) body) =
      (.name, n.text) :: blockWords header body ++ [(.newline, "")] := by
  simp [wordsOf_block, blockWords]

/-- The words of a stage after the first. -/
def Stage.more (s : Stage) : List Word :=
  blockWords (s.entryPoint.map TextLiteral.piece).toList (s.lines.map (·.row 3))

theorem Stage.wordsOf_rows (s : Stage) :
    wordsOf s.rows = (.name, s.word.text) :: s.more ++ [(.newline, "")] :=
  wordsOf_namedBlock 2 s.word _ _

/-- The words of a dialect after the first. -/
def Dialect.more (d : Dialect) : List Word := blockWords [] (d.stages.flatMap Stage.rows)

theorem Dialect.wordsOf_rows (d : Dialect) :
    wordsOf d.rows = (.name, d.word.text) :: d.more ++ [(.newline, "")] :=
  wordsOf_namedBlock 1 d.word [] _

/-- The words of an attribute after the first. -/
def Component.more (c : Component) : List Word :=
  blockWords (c.name.map TextLiteral.piece).toList (c.lines.map (·.row 2))

theorem Component.wordsOf_rows (c : Component) :
    wordsOf c.rows = (.name, c.word.text) :: c.more ++ [(.newline, "")] :=
  wordsOf_namedBlock 1 c.word _ _

namespace TextureItem

def key : TextureItem → String
  | line l => l.key.text
  | filter _ => "filter"

/-- The words of a line or a filter block after the first. -/
def more : TextureItem → List Word
  | line l => Parser.settingWords l.equal l.setting
  | filter lines => blockWords [] (lines.map (·.row 2))

theorem wordsOf_rows (i : TextureItem) :
    wordsOf i.rows = (.name, i.key) :: i.more ++ [(.newline, "")] := by
  cases i with
  | line l => exact wordsOf_row 1 l
  | filter lines => simp [rows, key, more, wordsOf_block, blockWords]

end TextureItem

theorem Line.Fits.ne {keys : Keys} {l : Line} (h : l.Fits keys) {word : String}
    (hword : keys.lookup word = none) : l.key.text ≠ word := by
  obtain ⟨kind, hkind, -⟩ := h
  rintro rfl
  rw [hword] at hkind
  cases hkind

/-- The line names no image file but one of these. -/
def Line.NamesOneOf (files : List String) (l : Line) : Prop :=
  ∀ first more, l.key.text = "imageFile" → l.setting = .texts first more →
    Setting.joined first more ∈ files

end Outline

namespace Parser

variable {ρ β : Type} {P : ρ → Prop} {rest : List Word}

theorem lineOrClose_takes {closing : TokenKind} {named : β → Token → Parser ρ β} {b : β} {t : Token}
    {Q : ρ → Prop} {ws vs : List Word} (hclosing : t.kind ≠ closing)
    (h : Takes false P ws (line named b t) (fun _ => Q) vs) :
    Takes false P ws (lineOrClose closing named b t) (fun x r => ∃ b', x = .more b' ∧ Q r) vs := by
  rw [lineOrClose, if_neg hclosing]
  exact h.bind fun b' => .pure fun r hQ => ⟨b', rfl, hQ⟩

theorem namedLine_takes {named : β → Token → Parser ρ β} {b : β} {t : Token} {key : String}
    {Q : ρ → Prop} {ws vs : List Word} (ht : t.word = (.name, key)) (hkey : key ≠ "discard")
    (h : Takes false P ws (named b t) (fun _ => Q) vs) :
    Takes false P ws (line named b t) (fun _ => Q) vs := by
  rw [Token.word_eq_iff] at ht
  rwa [line_of_isName (Token.isName_iff.2 ht) hkey]

/-- The lines of a block. Before each of them the scene is in `I` of the lines before it. -/
theorem blockBody_takes {ι : Type} {parts : List ι} {rows : ι → List Row} {key : ι → String}
    {more : ι → List Word} {I : List ι → ρ → Prop} {named : β → Token → Parser ρ β}
    (hwords : ∀ x, wordsOf (rows x) = (.name, key x) :: more x ++ [(.newline, "")])
    (hkey : ∀ x ∈ parts, key x ≠ "discard")
    (hnamed : ∀ front x back, parts = front ++ x :: back → ∀ b (t : Token) rest, t.text = key x →
      Takes false (I front) (more x ++ (.newline, "") :: rest) (named b t)
        (fun _ => I (front ++ [x])) ((.newline, "") :: rest)) (b : β) (rest : List Word) :
    Takes false (I [])
      ((.newline, "") :: wordsOf (parts.flatMap rows) ++ (.symbol .rightBrace, "") :: rest)
      (blockBody named b) (fun _ => I parts) rest := by
  suffices h : ∀ front back, parts = front ++ back → ∀ b, Takes false (I front)
      ((.newline, "") :: (wordsOf (back.flatMap rows) ++ (.symbol .rightBrace, "") :: rest))
      (blockBody named b) (fun _ => I parts) rest from h [] parts rfl b
  intro front back hparts b
  induction back generalizing front b with
  | nil =>
    rw [List.append_nil] at hparts
    refine .round_skip rfl (by simp) (.round_done rfl (by simp) fun t ht => ?_)
    rw [Token.word_eq_iff] at ht
    rw [lineOrClose, if_pos ht.1, hparts]
    exact .pure fun r hI => ⟨b, rfl, hI⟩
  | cons x back ih =>
    have hx : key x ≠ "discard" := hkey x (by simp [hparts])
    have hround : ∀ t : Token, t.word = (.name, key x) → Takes false (I front)
        (more x ++ (.newline, "") ::
          (wordsOf (back.flatMap rows) ++ (.symbol .rightBrace, "") :: rest))
        (lineOrClose (.symbol .rightBrace) named b t)
        (fun y r => ∃ b', y = .more b' ∧ I (front ++ [x]) r)
        ((.newline, "") :: (wordsOf (back.flatMap rows) ++ (.symbol .rightBrace, "") :: rest)) := by
      intro t ht
      have hname := Token.word_eq_iff.1 ht
      exact lineOrClose_takes (by simp [hname.1])
        (namedLine_takes ht hx (hnamed front x back hparts b t _ hname.2))
    have hrest := ih (front ++ [x]) (by simp [hparts])
    refine .round_skip rfl (by simp [wordsOf_flatMap]) ?_
    rw [List.flatMap_cons, wordsOf_append, hwords, List.append_assoc, List.append_assoc]
    exact .round_more rfl (by simp) hround fun b' => hrest b'

/-- The lines of a block, none of which leads out of `P`. -/
theorem blockBody_keeps {ι : Type} {parts : List ι} {rows : ι → List Row} {key : ι → String}
    {more : ι → List Word} {named : β → Token → Parser ρ β}
    (hwords : ∀ x, wordsOf (rows x) = (.name, key x) :: more x ++ [(.newline, "")])
    (hkey : ∀ x ∈ parts, key x ≠ "discard")
    (hnamed : ∀ x ∈ parts, ∀ b (t : Token) rest, t.text = key x →
      Takes false P (more x ++ (.newline, "") :: rest) (named b t) (fun _ => P)
        ((.newline, "") :: rest)) (b : β) (rest : List Word) :
    Takes false P
      ((.newline, "") :: wordsOf (parts.flatMap rows) ++ (.symbol .rightBrace, "") :: rest)
      (blockBody named b) (fun _ => P) rest :=
  blockBody_takes (I := fun _ => P) hwords hkey
    (fun _ x _ hparts => hnamed x (by simp [hparts])) b rest

/-- Simple lines with keys of a block. -/
theorem lines_keep {lines : List Line} {depth : Nat} {keys : Keys}
    {named : β → Token → Parser ρ β} (hdiscard : keys.lookup "discard" = none)
    (hlines : ∀ l ∈ lines, l.Fits keys)
    (hnamed : ∀ l : Line, l.Fits keys → ∀ b (t : Token) rest, t.text = l.key.text →
      Takes false P (settingWords l.equal l.setting ++ (.newline, "") :: rest) (named b t)
        (fun _ => P) ((.newline, "") :: rest)) (b : β) (rest : List Word) :
    Takes false P
      ((.newline, "") :: wordsOf (lines.map (·.row depth)) ++ (.symbol .rightBrace, "") :: rest)
      (blockBody named b) (fun _ => P) rest := by
  rw [List.map_eq_flatMap]
  exact blockBody_keeps (wordsOf_row depth) (fun l hl => (hlines l hl).ne hdiscard)
    (fun l hl => hnamed l (hlines l hl)) b rest

/-- A block is skipped whatever stands in it, and so are names in its header. -/
theorem skipBlock_takes {header : List Piece} {body : List Row}
    (hheader : ∀ p ∈ header, p.word.1 = .name) (hbody : Nested body) :
    Takes false P (blockWords header body ++ rest) skipBlock (fun _ => P) rest := by
  have hseek : Takes false P (blockWords header body ++ rest) seekBrace (fun _ => P)
      ((.newline, "") :: (wordsOf body ++ (.symbol .rightBrace, "") :: rest)) := by
    rw [blockWords_append]
    induction header with
    | nil =>
      refine .round_done rfl (by simp) fun t ht => ?_
      rw [Token.word_eq_iff] at ht
      rw [if_pos (by simp [Token.isSymbol, ht.1])]
      exact .pure fun r hP => ⟨(), rfl, hP⟩
    | cons p header ih =>
      have hp : p.word.1 = .name := hheader p (by simp)
      refine .round_more (Q := fun _ => P) (by rw [hp]; rfl) (by simp [hp]) (fun t ht => ?_)
        fun _ => ih fun x hx => hheader x (List.mem_cons_of_mem p hx)
      have hkind : t.kind = p.word.1 := congrArg Prod.fst ht
      rw [if_neg (by simp [Token.isSymbol, hkind, hp])]
      exact .pure fun r hP => ⟨(), rfl, hP⟩
  have hclosed : Brackets.Closed ((.newline, "") :: wordsOf body) :=
    Brackets.Closed.append (Brackets.closed_singleton (by simp)) hbody.closed
  have hskip : Takes false P ((.newline, "") :: (wordsOf body ++ (.symbol .rightBrace, "") :: rest))
      skipToClose (fun _ => P) rest := by
    intro s _ hahead hP
    rw [← List.cons_append] at hahead
    obtain ⟨ts, us, hrest, hinside, hus⟩ := List.map_eq_append_iff.1 hahead
    obtain ⟨close, after, rfl, hclose, rfl⟩ := List.map_eq_cons_iff.1 hus
    rw [Token.word_eq_iff] at hclose
    rw [← hinside] at hclosed
    have hbalanced := Brackets.balanced_of_check hclosed.check
    have hends : ∀ t ∈ ts, t.isEndOfFile = false := by
      intro t ht
      have hword : t.word ∈ (.newline, "") :: wordsOf body := hinside ▸ List.mem_map_of_mem ht
      have hgoesOn : t.kind ≠ .endOfFile := by
        rcases List.mem_cons.1 hword with hnewline | hword
        · simp [(Token.word_eq_iff.1 hnewline).1]
        · exact hbody.goesOn _ hword
      simpa [Token.isEndOfFile] using hgoesOn
    obtain ⟨u, hrun, hpasses⟩ := skipToClose_run hrest hbalanced
      (by simp [Token.isSymbol, hclose.1]) hends
    have hcomposed : Composed LooksOnly True (skipToClose : Parser ρ Unit) := skipToClose_composed
    have hscene := hcomposed.scene_eq s
    rw [hrun] at hscene
    have hafter : u.cursor.rest = after := hpasses.rest_eq (by simpa using hrest)
    exact ⟨(), u, hrun, congrArg (List.map Token.word) hafter, hscene.symm ▸ hP⟩
  exact hseek.bind fun _ => hskip

/-- A block with its braces. -/
theorem block_takes {body : List Row} {named : β → Token → Parser ρ β} {b : β} {Q : ρ → Prop}
    (h : Takes false P ((.newline, "") :: wordsOf body ++ (.symbol .rightBrace, "") :: rest)
      (blockBody named b) (fun _ => Q) rest) :
    Takes false P (blockWords [] body ++ rest) (block named b) (fun _ => Q) rest := by
  rw [blockWords_append]
  exact (Takes.expect .leftBrace).bind fun _ => h

end Parser

/-! ## Lines of declarations -/

section Lines

variable {σ : Type} [RenderSystem σ]

/-- The changes that lines of such a declaration make lead from `P` to `P`. -/
def Kept (kind : ResourceKind) (P : Scene σ → Prop) : Prop :=
  ∀ ⦃α : Type⦄ ⦃f : Scene σ → α × Scene σ⦄, LineChange kind α f → ∀ s, P s → P (f s).2

namespace Parser

variable {P : Scene σ → Prop} {l : Line} {t : Token} {rest : List Word}

theorem materialLine_takes (hP : Kept .material P) (h : l.Fits Keys.material)
    (ht : t.text = l.key.text) :
    Takes false P (settingWords l.equal l.setting ++ (.newline, "") :: rest) (materialLine () t)
      (fun _ => P) ((.newline, "") :: rest) :=
  (readLine_takes Material.attributes h ht).bind_fact fun change _ =>
    .modify fun s hs => hP (.material change) s hs

omit [RenderSystem σ] in
theorem componentLine_takes (h : l.Fits Keys.component) (ht : t.text = l.key.text)
    (a : VertexAttribute) :
    Takes false P (settingWords l.equal l.setting ++ (.newline, "") :: rest) (componentLine a t)
      (fun _ => P) ((.newline, "") :: rest) :=
  (readLine_takes VertexAttribute.attributes h ht).bind_fact fun _ _ =>
    .pure fun _ hs => hs

theorem layerLine_takes (hP : Kept .textureLayer P) (h : l.Fits Keys.layer)
    (ht : t.text = l.key.text) :
    Takes false P (settingWords l.equal l.setting ++ (.newline, "") :: rest) (layerLine () t)
      (fun _ => P) ((.newline, "") :: rest) := by
  rw [layerLine]
  split
  · rename_i htex
    have hsetting : l.setting.Is .nameOrText := by
      obtain ⟨kind, hkind, his⟩ := h
      rw [← ht, htex] at hkind
      cases hkind
      exact his
    refine Takes.bind (Q := fun _ => P) ?_ fun texture => .modify fun s hs =>
      hP (.textureLayer ({ · with texture })) s hs
    refine (nameOrText_takes l.equal hsetting).bind fun name => ?_
    refine (Takes.inspect _).bind fun known => ?_
    split
    · exact .pure fun _ hs => hs.2
    · exact (Takes.note _).bind fun _ => .pure fun _ hs => hs.2
  · rename_i htex
    have hfits : l.Fits (Attribute.keys TextureLayer.attributes) := by
      obtain ⟨kind, hkind, his⟩ := h
      have hne : (l.key.text == "tex") = false := by simpa [← ht] using htex
      rw [Keys.layer, List.lookup_cons, hne] at hkind
      exact ⟨kind, hkind, his⟩
    exact (readLine_takes TextureLayer.attributes hfits ht).bind_fact fun change _ =>
      .modify fun s hs => hP (.textureLayer change) s hs

/-! ## Texture blocks -/

/-- The image file of a texture draft, if it has one, is one of these. -/
def NamesOneOf (files : List String) (s : Scene σ) : Prop :=
  s.drafts.texture.settings.fileName = "" ∨ s.drafts.texture.settings.fileName ∈ files

/-- Of the lines of a texture, only one names an image file. -/
theorem keeps_fileName : ∀ e ∈ TextureDraft.attributes,
    e.1 = "imageFile" ∨ e.2.Keeps (fun d : TextureDraft => d.settings.fileName) := by
  intro e he
  simp only [TextureDraft.attributes, List.mem_cons, List.not_mem_nil, or_false] at he
  rcases he with rfl | rfl | rfl | rfl | rfl | rfl | rfl | rfl | rfl | rfl | rfl
  · exact .inl rfl
  all_goals first
    | exact .inr (Attribute.keeps_ofVocabulary fun _ _ => rfl)
    | exact .inr fun _ _ => rfl

omit [RenderSystem σ] in
theorem NamesOneOf.change {files : List String} {a : Attribute TextureDraft}
    {change : TextureDraft → TextureDraft} (hl : l.NamesOneOf files)
    (ha : TextureDraft.attributes.lookup l.key.text = some a) (hchange : a.Makes l.setting change)
    {s : Scene σ} (hs : NamesOneOf files s) : NamesOneOf files (s.changeTexture change) := by
  rcases keeps_fileName _ (mem_of_lookup ha) with hkey | hkeeps
  · have hkey : l.key.text = "imageFile" := hkey
    obtain rfl :
        .text (fun path => TextureDraft.change fun s => { s with fileName := path }) = a := by
      rw [hkey] at ha
      exact Option.some.inj ha
    cases hsetting : l.setting with
    | texts first more =>
      rw [hsetting] at hchange
      rw [show change = _ from hchange]
      exact .inr (hl first more hkey hsetting)
    | _ => rw [hsetting] at hchange; cases hchange
  · have hsame := hchange.keeps hkeeps s.drafts.texture
    unfold NamesOneOf at hs ⊢
    simpa [Scene.changeTexture, hsame] using hs

/-- A line of a texture. -/
theorem textureLine_takes {files : List String} (hP : Kept .texture P) (h : l.Fits Keys.texture)
    (hl : l.NamesOneOf files) (ht : t.text = l.key.text) :
    Takes false (fun s => P s ∧ NamesOneOf files s)
      (settingWords l.equal l.setting ++ (.newline, "") :: rest) (textureLine () t)
      (fun _ s => P s ∧ NamesOneOf files s) ((.newline, "") :: rest) := by
  rw [textureLine, if_neg (ht ▸ h.ne rfl)]
  refine (readLine_takes TextureDraft.attributes h ht).bind_fact fun change hchange =>
    .modify fun s hs => ?_
  obtain ⟨a, ha, hmakes⟩ := hchange
  exact ⟨hP (.texture change) s hs.1, hs.2.change hl ha hmakes⟩

/-- A filter block. -/
theorem filterBlock_takes {files : List String} (hP : Kept .texture P) {lines : List Line}
    (h : ∀ l ∈ lines, l.Fits Keys.filter) (ht : t.text = "filter") :
    Takes false (fun s => P s ∧ NamesOneOf files s)
      (blockWords [] (lines.map (·.row 2)) ++ rest) (textureLine () t)
      (fun _ s => P s ∧ NamesOneOf files s) rest := by
  rw [textureLine, if_pos ht]
  refine block_takes (lines_keep rfl h (fun l hl _ t rest ht => ?_) () rest)
  refine (readLine_takes TextureFilter.attributes hl ht).bind_fact fun change _ =>
    .modify fun s hs => ?_
  exact ⟨hP (.texture (.changeFilter change)) s hs.1, hs.2⟩

/-! ## Blocks of vertex formats -/

omit [RenderSystem σ] in
/-- The header of an attribute, which has a name if the attribute is universal. -/
theorem attributeHeader_takes {c : Component} (h : c.WellFormed) {kind : AttributeKind}
    (hkind : AttributeKind.ofKeyword? c.word.text = some kind) {ws : List Word} :
    Takes false P ((c.name.map TextLiteral.piece).toList.map Piece.word ++
        (.symbol .leftBrace, "") :: ws) (attributeHeader kind) (fun _ => P) ws := by
  have huniversal : c.name.isSome ↔ kind = .universal := by
    have hwords : ∀ w ∈ ["coord", "color", "normal", "binormal", "tangent", "texCoord", "fogCoord",
        "universal"], AttributeKind.ofKeyword? w = some .universal ↔ w = "universal" := by decide
    rw [h.named, ← hwords _ h.word, hkind, Option.some.injEq]
  have hname : Takes false P ((c.name.map TextLiteral.piece).toList.map Piece.word ++
      (.symbol .leftBrace, "") :: ws) (headerName kind) (fun _ => P)
      ((.symbol .leftBrace, "") :: ws) := by
    rw [headerName]
    cases hname : c.name with
    | none =>
      rw [if_neg (by simpa [hname] using huniversal)]
      exact .pure fun _ hs => hs
    | some name =>
      have hnonempty : name.text ≠ "" := h.name name hname
      rw [if_pos (huniversal.1 (by rw [hname]; rfl))]
      refine (Takes.next rfl (by simp)).bind_fact fun t ht => ?_
      rw [TextLiteral.word_piece, Token.word_eq_iff] at ht
      rw [if_pos ⟨ht.1, by rwa [ht.2]⟩]
      exact .pure fun _ hs => hs
  exact hname.bind fun _ => (Takes.expect .leftBrace).bind fun _ => .pure fun _ hs => hs

/-- The block of an attribute. -/
theorem attributeBlock_takes (hP : Kept .vertexFormat P) {c : Component} (h : c.WellFormed)
    (ht : t.text = c.word.text) :
    Takes false P (c.more ++ rest) (attributeBlock () t) (fun _ => P) rest := by
  obtain ⟨kind, hkind⟩ : ∃ kind, AttributeKind.ofKeyword? c.word.text = some kind := by
    have hwords : ∀ w ∈ ["coord", "color", "normal", "binormal", "tangent", "texCoord", "fogCoord",
        "universal"], (AttributeKind.ofKeyword? w).isSome := by decide
    exact Option.isSome_iff_exists.1 (hwords _ h.word)
  rw [attributeBlock, ht, hkind, Component.more, blockWords_append]
  refine (attributeHeader_takes h hkind).bind fun a => Takes.bind (Q := fun _ => P) ?_ fun b =>
    .modify fun s hs => hP (.vertexFormat (·.push b)) s hs
  exact lines_keep rfl h.lines (fun l hl b t rest ht => componentLine_takes hl ht b) a rest

/-! ## Blocks of shaders -/

/-- What a stage has said by a version line among its lines. -/
def Versioned (P : Scene σ → Prop) (lines : List Line) (s : Scene σ) : Prop :=
  P s ∧ ((∃ l ∈ lines, l.key.text = "version") → s.drafts.stage.hasVersion)

omit [RenderSystem σ] in
/-- A change of the draft that keeps its version. -/
theorem Versioned.change {front : List Line} {s s' : Scene σ} (h : Versioned P front s)
    (hP : P s') (hversion : s'.drafts.stage.version = s.drafts.stage.version)
    (hl : l.key.text ≠ "version") : Versioned P (front ++ [l]) s' := by
  refine ⟨hP, ?_⟩
  rintro ⟨x, hx, hkey⟩
  rcases List.mem_append.1 hx with hx | hx
  · rw [StageDraft.hasVersion, hversion]
    exact h.2 ⟨x, hx, hkey⟩
  · rw [List.mem_singleton.1 hx] at hkey
    exact absurd hkey hl

omit [RenderSystem σ] in
theorem requireVersion_takes {Q : Scene σ → Prop} (h : ∀ s, Q s → s.drafts.stage.hasVersion)
    {ws : List Word} : Takes false Q ws (requireVersion t) (fun _ => Q) ws := by
  refine (Takes.inspect _).bind fun known => ?_
  cases known with
  | true => exact .pure fun _ hs => hs.2
  | false =>
    rintro s - - ⟨hfalse, hs⟩
    rw [h _ hs] at hfalse
    cases hfalse

theorem codeFromFile_takes (hP : Kept .shader P) (equal : Bool) (first : TextLiteral)
    (more : List TextLiteral) {front : List Line} :
    Takes false (Versioned P front)
      (settingWords equal (.texts first more) ++ (.newline, "") :: rest) codeFromFile
      (fun _ => Versioned P front) ((.newline, "") :: rest) := by
  refine (text_takes equal first more).bind_fact fun path _ => ?_
  refine Takes.bind (Q := fun _ => Versioned P front)
    (.build fun s hs => ⟨hP (.readFile path) s hs.1, hs.2⟩) fun content => ?_
  cases content with
  | ok content => exact .pure fun _ hs => hs
  | error fault => exact (Takes.note _).bind fun _ => .pure fun _ hs => hs

/-- A line of a stage; before a line of code a version has been given. -/
theorem stageLine_takes (hP : Kept .shader P) (h : l.Fits Keys.stage) {front : List Line}
    (hversion : l.key.text = "source" ∨ l.key.text = "sourceFile" →
      ∃ v ∈ front, v.key.text = "version") (ht : t.text = l.key.text) :
    Takes false (Versioned P front) (settingWords l.equal l.setting ++ (.newline, "") :: rest)
      (stageLine () t) (fun _ => Versioned P (front ++ [l])) ((.newline, "") :: rest) := by
  obtain ⟨kind, hkind, his⟩ := h
  have hmem := mem_of_lookup hkind
  rw [stageLine, ht]
  simp only [Keys.stage, List.mem_cons, Prod.mk.injEq, List.not_mem_nil, or_false] at hmem
  rcases hmem with ⟨hkey, rfl⟩ | ⟨hkey, rfl⟩ | ⟨hkey, rfl⟩
  · rw [hkey]
    cases hsetting : l.setting with
    | word n =>
      rw [hsetting] at his
      obtain ⟨version, hfind⟩ : ∃ v, ShaderVersion.vocabulary.find? n.text = some v :=
        Option.isSome_iff_exists.1 ((Catalog.isSome_lookup_iff _ _).2 his)
      have hspecified : ∀ e ∈ ShaderVersion.vocabulary.words, (e.2 != .unspecified) = true := by
        decide
      refine (keyword_takes l.equal hfind).bind_fact fun v hv => .modify fun s hs => ?_
      refine ⟨hP (.stage ({ · with version := v })) s hs.1, fun _ => ?_⟩
      rw [hv]
      exact hspecified _ (mem_of_lookup hfind)
    | _ => rw [hsetting] at his; cases his
  · rw [hkey]
    cases hsetting : l.setting with
    | texts first more =>
      have hgiven := hversion (.inl hkey)
      refine (requireVersion_takes fun s hs => hs.2 hgiven).bind fun _ => ?_
      refine (text_takes l.equal first more).bind_fact fun code _ => .modify fun s hs => ?_
      exact hs.change (hP (.stage (.add [code])) s hs.1) rfl (by rw [hkey]; decide)
    | _ => rw [hsetting] at his; cases his
  · rw [hkey]
    cases hsetting : l.setting with
    | texts first more =>
      have hgiven := hversion (.inr hkey)
      refine (requireVersion_takes fun s hs => hs.2 hgiven).bind fun _ => ?_
      refine (codeFromFile_takes hP l.equal first more).bind fun code => .modify fun s hs => ?_
      exact hs.change (hP (.stage (.add code)) s hs.1) rfl (by rw [hkey]; decide)
    | _ => rw [hsetting] at his; cases his

omit [RenderSystem σ] in
theorem stageHeader_takes {entryPoint : Option TextLiteral}
    (h : ∀ name ∈ entryPoint, name.text ≠ "") (stage : ShaderType) {ws : List Word} :
    Takes false P ((entryPoint.map TextLiteral.piece).toList.map Piece.word ++
        (.symbol .leftBrace, "") :: ws) (stageHeader stage) (fun _ => P) ws := by
  cases entryPoint with
  | none =>
    refine (Takes.next rfl (by simp)).bind_fact fun t ht => ?_
    rw [Token.word_eq_iff] at ht
    rw [if_pos (by simp [Token.isSymbol, ht.1])]
    exact .pure fun _ hs => hs
  | some name =>
    have hname : name.text ≠ "" := h name rfl
    refine (Takes.next rfl (by simp)).bind_fact fun t ht => ?_
    rw [TextLiteral.word_piece, Token.word_eq_iff] at ht
    rw [if_neg (by simp [Token.isSymbol, ht.1]), if_pos ⟨ht.1, by rwa [ht.2]⟩]
    exact (Takes.expect .leftBrace).bind fun _ => .pure fun _ hs => hs

/-- A stage that has a version is submitted or, if it has no code, left out. -/
theorem finishStage_takes (hP : Kept .shader P) (stage : ShaderType) (entryPoint : String)
    {ws : List Word} :
    Takes false (fun s => P s ∧ s.drafts.stage.hasVersion) ws (finishStage stage entryPoint)
      (fun _ => P) ws := by
  have htake : Takes false (fun s => P s ∧ s.drafts.stage.hasVersion) ws
      (build (Scene.takeStage (σ := σ))) (fun draft s => draft.hasVersion ∧ P s) ws :=
    .build fun s hs => ⟨hs.2, hP .takeStage s hs.1⟩
  refine Takes.current.bind fun close => htake.bind_fact fun draft hversion => ?_
  rw [if_neg (by simp [hversion])]
  split
  · exact .note _
  · refine Takes.bind (Q := fun _ => P) (.build fun s hs => ?_) fun compiled => .noteIf _ _
    exact hP (.compileStage _) s hs

/-- The block of a stage. -/
theorem stageBlock_takes (hP : Kept .shader P) {stage : Stage} (h : stage.WellFormed)
    (ht : t.text = stage.word.text) :
    Takes false P (stage.more ++ rest) (stageBlock () t) (fun _ => P) rest := by
  obtain ⟨type, htype⟩ : ∃ type, ShaderType.vocabulary.find? stage.word.text = some type :=
    Option.isSome_iff_exists.1 ((Catalog.isSome_lookup_iff _ _).2 h.word)
  rw [stageBlock, ht, htype, Stage.more, blockWords_append]
  refine (stageHeader_takes h.entryPoint type).bind fun entryPoint => ?_
  have hlines : Takes false P ((.newline, "") :: wordsOf (stage.lines.map (·.row 3)) ++
      (.symbol .rightBrace, "") :: rest) (blockBody stageLine ())
      (fun _ => Versioned P stage.lines) rest := by
    rw [List.map_eq_flatMap]
    refine (blockBody_takes (I := Versioned P) (wordsOf_row 3) (fun l hl => (h.lines l hl).ne rfl)
      (fun front l back hlines _ t rest ht => ?_) () rest).mono (fun s hs => ⟨hs, by simp⟩)
      fun _ _ hs => hs
    exact stageLine_takes hP (h.lines l (by simp [hlines])) (h.version.first front l back hlines) ht
  refine hlines.bind fun _ => (finishStage_takes hP type entryPoint).mono (fun s hs => ?_)
    fun _ _ hs => hs
  exact ⟨hs.1, hs.2 h.version.given⟩

/-- The block of a dialect, be it the render system's or another one. -/
theorem dialectBlock_takes (hP : Kept .shader P) {d : Dialect} (h : d.WellFormed)
    (ht : t.text = d.word.text) :
    Takes false P (d.more ++ rest) (dialectBlock () t) (fun _ => P) rest := by
  obtain ⟨dialect, hdialect⟩ : ∃ dialect, ShaderDialect.ofKeyword? d.word.text = some dialect := by
    have hwords : ∀ w ∈ ["glsl", "glslEs", "hlsl3", "hlsl5"],
        (ShaderDialect.ofKeyword? w).isSome := by decide
    exact Option.isSome_iff_exists.1 (hwords _ h.word)
  rw [dialectBlock, ht, hdialect]
  refine Takes.bind (Q := fun _ => P) (.build fun s hs => hP .backend s hs) fun backend => ?_
  split
  · exact (Takes.note _).bind fun _ => skipBlock_takes (by simp) (.flatMap Stage.nested)
  · have hstages : Takes false P (d.more ++ rest) (block stageBlock ()) (fun _ => P) rest :=
      block_takes (blockBody_keeps Stage.wordsOf_rows
        (fun stage hstage heq => absurd (h.stages stage hstage).word (by rw [heq]; decide))
        (fun stage hstage _ t rest ht => stageBlock_takes hP (h.stages stage hstage) ht) () rest)
    refine hstages.bind fun _ => ?_
    refine Takes.bind (Q := fun _ => P)
      (.build fun s hs => hP .compileShader s hs) fun compiled => ?_
    refine Takes.bind (Q := fun _ => P)
      (.build fun s hs => hP .currentShaderName s hs) fun name => ?_
    exact .noteIf _ _

end Parser

end Lines

end MaterialScript
