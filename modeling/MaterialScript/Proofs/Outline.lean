/-
Outlines: what a script says, apart from its layout.

An outline is a list of variable definitions and declarations. `WellFormed`
gives the language: the keys of every kind of block with the kind of value each
takes, what a block may hold, and which names are free; it can be decided.
`text` writes an outline out, one definition, header or attribute to a line,
and blocks indented by tabs.
-/
import Mathlib.Tactic.MkIffOfInductiveProp
import MaterialScript.Proofs.Partition
import MaterialScript.Resource.Material
import MaterialScript.Resource.Shader
import MaterialScript.Resource.Texture
import MaterialScript.Resource.TextureLayer

namespace MaterialScript.Outline

/-! ## Words -/

/-- A letter or an underscore, and letters, underscores and digits after it. -/
def isName : List Char → Bool
  | [] => false
  | c :: cs => Piece.startsName c && cs.all Piece.continuesName

/-- A bare name. -/
structure Name where
  chars : List Char
  proper : isName chars

/-- A string literal, as an author writes it, and what it stands for. -/
structure TextLiteral where
  written : List Char
  content : List Char
  quoted : Quoted written content

/-- A number literal, as an author writes it. -/
structure NumberLiteral where
  written : List Char
  kind : TokenKind
  number : Number written kind

/-- A number literal, with a minus or without. -/
structure SignedLiteral where
  negated : Bool
  literal : NumberLiteral

namespace Name

def text (n : Name) : String := .ofList n.chars

def piece (n : Name) : Piece := .lexeme n.chars .name n.chars

/-- The name that a string spells. -/
def of (s : String) (proper : isName s.toList := by decide) : Name := ⟨s.toList, proper⟩

end Name

namespace TextLiteral

def text (t : TextLiteral) : String := .ofList t.content

def piece (t : TextLiteral) : Piece := .lexeme ('"' :: t.written ++ ['"']) .string t.content

/-- Puts a backslash before quotes, backslashes and line feeds. -/
def escape : List Char → List Char
  | [] => []
  | '\n' :: cs => '\\' :: 'n' :: escape cs
  | c :: cs => if c = '"' ∨ c = '\\' then '\\' :: c :: escape cs else c :: escape cs

theorem quoted_escape (cs : List Char) : Quoted (escape cs) cs := by
  fun_induction escape cs with
  | case1 => exact .nil
  | case2 cs ih => exact .escaped 'n' ih
  | case3 c cs hline hescape ih =>
    have hmeaning : Literal.unescape c = c := by
      rcases hescape with rfl | rfl <;> rfl
    have hquoted := Quoted.escaped c ih
    rwa [hmeaning] at hquoted
  | case4 c cs hline hplain ih =>
    rw [not_or] at hplain
    exact .plain hplain.1 hplain.2 hline ih

/-- Every string can be written. -/
def of (s : String) : TextLiteral := ⟨escape s.toList, s.toList, quoted_escape s.toList⟩

end TextLiteral

namespace NumberLiteral

def piece (n : NumberLiteral) : Piece := .lexeme n.written n.kind n.written

/-- Digits alone are an integer. -/
def ofDigits (ds : List Char) (h : Digits ds) : NumberLiteral :=
  ⟨ds, .integer, by simpa using Number.intro h (.inl rfl) (.inl rfl)⟩

end NumberLiteral

/-- The punctuation character `s`. -/
def mark (s : Symbol) : Piece := .single s.char (.symbol s)

def SignedLiteral.pieces (v : SignedLiteral) : List Piece :=
  (if v.negated then [mark .minus] else []) ++ [v.literal.piece]

/-- A word of the language. -/
def keyword (s : String) : Piece := .lexeme s.toList .name s.toList

/-! ## Lines -/

/-- What a line says after its key. -/
inductive Setting where
  | number (v : SignedLiteral)
  | numbers (first : SignedLiteral) (more : List SignedLiteral)
  | flag (b : Bool)
  | word (n : Name)
  | texts (first : TextLiteral) (more : List TextLiteral)

namespace Setting

/-- Numbers stand between commas, strings between plus signs. -/
def pieces : Setting → List Piece
  | number v => v.pieces
  | numbers first more => first.pieces ++ more.flatMap fun v => mark .comma :: v.pieces
  | flag b => [keyword (if b then "true" else "false")]
  | word n => [n.piece]
  | texts first more => first.piece :: more.flatMap fun t => [mark .plus, t.piece]

/-- What strings joined by plus signs make. -/
def joined (first : TextLiteral) (more : List TextLiteral) : String :=
  .join ((first :: more).map TextLiteral.text)

end Setting

/-- The kinds of values that keys take. -/
inductive ValueKind where
  | color
  | number
  | flag
  | text
  | nameOrText
  | oneOf (words : List String)

/-- The words of a vocabulary. -/
def ValueKind.of {α : Type} (v : Vocabulary α) : ValueKind := oneOf (v.words.map (·.1))

/-- A setting is a value of this kind. -/
def Setting.Is : Setting → ValueKind → Prop
  | numbers .., .color => True
  | number _, .number => True
  | flag _, .flag => True
  | texts .., .text => True
  | word _, .nameOrText => True
  | texts .., .nameOrText => True
  | word n, .oneOf words => n.text ∈ words
  | _, _ => False

/-- The keys of a kind of block. -/
abbrev Keys := List (String × ValueKind)

namespace Keys

def material : Keys :=
  [("ambient", .color), ("diffuse", .color), ("specular", .color), ("emission", .color),
    ("shininess", .number), ("offsetFactor", .number), ("offsetUnits", .number),
    ("alphaReference", .number), ("colorMaterial", .flag), ("lighting", .flag),
    ("blending", .flag), ("depthTest", .flag), ("fog", .flag), ("polygonOffset", .flag),
    ("shading", .of Shading.vocabulary), ("wireframe", .of Wireframe.vocabulary),
    ("wireframeFront", .of Wireframe.vocabulary), ("wireframeBack", .of Wireframe.vocabulary),
    ("depthMethod", .of CompareMode.vocabulary), ("alphaMethod", .of CompareMode.vocabulary),
    ("blendSource", .of BlendFactor.vocabulary), ("blendTarget", .of BlendFactor.vocabulary),
    ("renderFace", .of Face.vocabulary)]

def stage : Keys :=
  [("version", .of ShaderVersion.vocabulary), ("source", .text), ("sourceFile", .text)]

def component : Keys :=
  [("size", .number), ("type", .of DataType.vocabulary), ("normalize", .flag),
    ("attribute", .of VertexFlag.vocabulary)]

def texture : Keys :=
  [("imageFile", .text), ("fillColor", .color), ("type", .of TextureType.vocabulary),
    ("bufferType", .of BufferType.vocabulary), ("format", .of PixelFormat.vocabulary),
    ("formatHW", .of HardwareFormat.vocabulary), ("width", .number), ("height", .number),
    ("depth", .number), ("colorKey", .color), ("renderTarget", .flag)]

def filter : Keys :=
  [("mipMaps", .flag), ("anisotropy", .number), ("wrap", .of WrapMode.vocabulary),
    ("wrapX", .of WrapMode.vocabulary), ("wrapY", .of WrapMode.vocabulary),
    ("wrapZ", .of WrapMode.vocabulary), ("min", .of SampleMode.vocabulary),
    ("mag", .of SampleMode.vocabulary), ("mip", .of MipMapFilter.vocabulary)]

def layer : Keys :=
  [("tex", .nameOrText), ("enable", .flag), ("visibleMask", .number), ("index", .number),
    ("environment", .of TextureEnvironment.vocabulary),
    ("mapping", .of CoordinateMapping.vocabulary), ("reliefEnable", .flag),
    ("heightMapScale", .number), ("viewRange", .number), ("minSamples", .number),
    ("maxSamples", .number)]

end Keys

/-- A line of a block: a key, an `=` or none, and a value. -/
structure Line where
  key : Name
  equal : Bool
  setting : Setting

/-- The line has a key of the block and a value that the key takes. -/
def Line.Fits (keys : Keys) (l : Line) : Prop :=
  ∃ kind, keys.lookup l.key.text = some kind ∧ l.setting.Is kind

/-! ## Blocks -/

/-- A stage of a shader. -/
structure Stage where
  word : Name
  entryPoint : Option TextLiteral
  lines : List Line

/-- The code of a shader in one dialect. -/
structure Dialect where
  word : Name
  stages : List Stage

/-- An attribute of a vertex format. -/
structure Component where
  word : Name
  name : Option TextLiteral
  lines : List Line

/-- What the block of a texture holds. -/
inductive TextureItem where
  | line (l : Line)
  | filter (lines : List Line)

/-- A declaration of one of the five kinds. -/
inductive Declaration where
  | material (name : TextLiteral) (lines : List Line)
  | shader (name : TextLiteral) (format : Option Name) (dialects : List Dialect)
  | vertexFormat (name : TextLiteral) (components : List Component)
  | texture (name : TextLiteral) (items : List TextureItem)
  | textureLayer (name : TextLiteral) (word : Name) (lines : List Line)

/-- What stands at the top level of a script. -/
inductive Entry where
  | definition (name : Name) (value : Setting)
  | declaration (d : Declaration)

/-- A version comes before any code. -/
structure VersionFirst (lines : List Line) : Prop where
  given : ∃ l ∈ lines, l.key.text = "version"
  first : ∀ front l back, lines = front ++ l :: back →
    l.key.text = "source" ∨ l.key.text = "sourceFile" → ∃ v ∈ front, v.key.text = "version"

/-- The stage is one there is, its entry point, if given, has a name, and it has its version
first. -/
@[mk_iff]
structure Stage.WellFormed (s : Stage) : Prop where
  word : s.word.text ∈
    ["vertexAsm", "pixelAsm", "vertex", "pixel", "geometry", "hull", "domain", "compute"]
  entryPoint : ∀ name ∈ s.entryPoint, name.text ≠ ""
  lines : ∀ l ∈ s.lines, l.Fits Keys.stage
  version : VersionFirst s.lines

/-- The dialect is one there is. -/
@[mk_iff]
structure Dialect.WellFormed (d : Dialect) : Prop where
  word : d.word.text ∈ ["glsl", "glslEs", "hlsl3", "hlsl5"]
  stages : ∀ s ∈ d.stages, s.WellFormed

/-- The attribute is one there is; a universal one, and no other, has a name. -/
@[mk_iff]
structure Component.WellFormed (c : Component) : Prop where
  word : c.word.text ∈
    ["coord", "color", "normal", "binormal", "tangent", "texCoord", "fogCoord", "universal"]
  named : c.name.isSome ↔ c.word.text = "universal"
  name : ∀ name ∈ c.name, name.text ≠ ""
  lines : ∀ l ∈ c.lines, l.Fits Keys.component

def TextureItem.WellFormed : TextureItem → Prop
  | line l => l.Fits Keys.texture
  | filter lines => ∀ l ∈ lines, l.Fits Keys.filter

namespace Declaration

def kind : Declaration → ResourceKind
  | material .. => .material
  | shader .. => .shader
  | vertexFormat .. => .vertexFormat
  | texture .. => .texture
  | textureLayer .. => .textureLayer

def name : Declaration → TextLiteral
  | material name _ => name
  | shader name _ _ => name
  | vertexFormat name _ => name
  | texture name _ => name
  | textureLayer name _ _ => name

/-- What the block holds, and what the header says besides the name. -/
def WellFormed : Declaration → Prop
  | material _ lines => ∀ l ∈ lines, l.Fits Keys.material
  | shader _ _ dialects => ∀ d ∈ dialects, d.WellFormed
  | vertexFormat name components =>
    ¬ "vertexFormat".toList <+: name.content ∧ ∀ c ∈ components, c.WellFormed
  | texture _ items => ∀ i ∈ items, i.WellFormed
  | textureLayer _ word lines =>
    word.text ∈ ["base", "standard", "relief"] ∧ ∀ l ∈ lines, l.Fits Keys.layer

/-- The image files a texture names. -/
def imageFiles : Declaration → List String
  | texture _ items => items.flatMap fun
    | .line ⟨key, _, .texts first more⟩ =>
      if key.text = "imageFile" then [Setting.joined first more] else []
    | _ => []
  | _ => []

end Declaration

def Entry.WellFormed : Entry → Prop
  | definition _ value => value.Is .number ∨ value.Is .text
  | declaration d => d.name.text ≠ "" ∧ d.WellFormed

def Entry.declared : Entry → List (ResourceKind × String)
  | definition .. => []
  | declaration d => [(d.kind, d.name.text)]

def Entry.imageFiles : Entry → List String
  | definition .. => []
  | declaration d => d.imageFiles

/-- The entries are of the language, and no two declarations of a kind have the same name. -/
@[mk_iff]
structure WellFormed (entries : List Entry) : Prop where
  each : ∀ e ∈ entries, e.WellFormed
  names : (entries.flatMap Entry.declared).Nodup

/-! ## Checking -/

instance Setting.decidableIs (v : Setting) (kind : ValueKind) : Decidable (v.Is kind) := by
  cases v <;> cases kind <;> unfold Setting.Is <;> infer_instance

instance (keys : Keys) (l : Line) : Decidable (l.Fits keys) :=
  inferInstanceAs (Decidable (∃ kind ∈ keys.lookup l.key.text, l.setting.Is kind))

/-- Of the lines that need a version or give it, the first one gives it. -/
theorem versionFirst_iff_find {lines : List Line} :
    VersionFirst lines ↔
      ∃ l ∈ lines.find? (·.key.text ∈ ["version", "source", "sourceFile"]),
        l.key.text = "version" := by
  constructor
  · rintro ⟨⟨v, hv, hversion⟩, hfirst⟩
    obtain ⟨l, hl⟩ : ∃ l, lines.find? (·.key.text ∈ ["version", "source", "sourceFile"]) = some l :=
      Option.isSome_iff_exists.1 (List.find?_isSome.2 ⟨v, hv, by simp [hversion]⟩)
    refine ⟨l, hl, ?_⟩
    obtain ⟨hkey, front, back, rfl, hfront⟩ := List.find?_eq_some_iff_append.1 hl
    by_contra hne
    obtain ⟨w, hw, hwkey⟩ := hfirst front l back rfl (by simpa [hne] using hkey)
    simpa [hwkey] using hfront w hw
  · rintro ⟨v, hv, hversion⟩
    obtain ⟨-, before, after, rfl, hbefore⟩ := List.find?_eq_some_iff_append.1 hv
    refine ⟨⟨v, by simp, hversion⟩, fun front l back hlines hl => ?_⟩
    rcases List.append_eq_append_iff.1 hlines with ⟨cs, rfl, hcs⟩ | ⟨cs, rfl, hcs⟩
    · cases cs with
      | nil =>
        obtain rfl : v = l := (List.cons_eq_cons.1 hcs).1
        simp [hversion] at hl
      | cons c cs =>
        obtain rfl : v = c := (List.cons_eq_cons.1 hcs).1
        exact ⟨v, by simp, hversion⟩
    · cases cs with
      | nil =>
        obtain rfl : l = v := (List.cons_eq_cons.1 hcs).1
        simp [hversion] at hl
      | cons c cs =>
        obtain rfl : l = c := (List.cons_eq_cons.1 hcs).1
        simpa [hl] using hbefore l (by simp)

instance (lines : List Line) : Decidable (VersionFirst lines) :=
  decidable_of_iff' _ versionFirst_iff_find

instance (s : Stage) : Decidable s.WellFormed := decidable_of_iff' _ s.wellFormed_iff

instance (d : Dialect) : Decidable d.WellFormed := decidable_of_iff' _ d.wellFormed_iff

instance (c : Component) : Decidable c.WellFormed := decidable_of_iff' _ c.wellFormed_iff

instance TextureItem.decidableWellFormed (i : TextureItem) : Decidable i.WellFormed := by
  cases i <;> unfold TextureItem.WellFormed <;> infer_instance

instance Declaration.decidableWellFormed (d : Declaration) : Decidable d.WellFormed := by
  cases d <;> unfold Declaration.WellFormed <;> infer_instance

instance Entry.decidableWellFormed (e : Entry) : Decidable e.WellFormed := by
  cases e <;> unfold Entry.WellFormed <;> infer_instance

instance (entries : List Entry) : Decidable (WellFormed entries) :=
  decidable_of_iff' _ (wellFormed_iff entries)

/-! ## Writing -/

/-- A line of the text: how far it is indented, and its words. -/
structure Row where
  depth : Nat
  words : List Piece

/-- A block: a header line that ends with the opening brace, the rows in it, and the closing
brace on a line of its own. -/
def block (depth : Nat) (header : List Piece) (body : List Row) : List Row :=
  ⟨depth, header ++ [mark .leftBrace]⟩ :: body ++ [⟨depth, [mark .rightBrace]⟩]

/-- An `=`, or nothing. -/
def equalSign (equal : Bool) : List Piece := if equal then [mark .equal] else []

/-- The words of a line. -/
def Line.words (l : Line) : List Piece := l.key.piece :: equalSign l.equal ++ l.setting.pieces

def Line.row (depth : Nat) (l : Line) : Row := ⟨depth, l.words⟩

def Stage.rows (s : Stage) : List Row :=
  block 2 (s.word.piece :: (s.entryPoint.map TextLiteral.piece).toList) (s.lines.map (·.row 3))

def Dialect.rows (d : Dialect) : List Row :=
  block 1 [d.word.piece] (d.stages.flatMap Stage.rows)

def Component.rows (c : Component) : List Row :=
  block 1 (c.word.piece :: (c.name.map TextLiteral.piece).toList) (c.lines.map (·.row 2))

def TextureItem.rows : TextureItem → List Row
  | line l => [l.row 1]
  | filter lines => block 1 [keyword "filter"] (lines.map (·.row 2))

namespace Declaration

/-- The header without the opening brace. -/
def header : Declaration → List Piece
  | material name _ => [keyword "material", name.piece]
  | shader name format _ =>
    keyword "shader" :: name.piece :: (format.map Name.piece).toList
  | vertexFormat name _ => [keyword "vertexFormat", name.piece]
  | texture name _ => [keyword "texture", name.piece]
  | textureLayer name word _ => [keyword "textureLayer", name.piece, word.piece]

def body : Declaration → List Row
  | material _ lines => lines.map (·.row 1)
  | shader _ _ dialects => dialects.flatMap Dialect.rows
  | vertexFormat _ components => components.flatMap Component.rows
  | texture _ items => items.flatMap TextureItem.rows
  | textureLayer _ _ lines => lines.map (·.row 1)

def rows (d : Declaration) : List Row := block 0 d.header d.body

end Declaration

def Entry.rows : Entry → List Row
  | definition name value =>
    [⟨0, mark .atSign :: name.piece :: mark .equal :: value.pieces⟩]
  | declaration d => d.rows

/-- What stands between two words: a blank, but nothing after an `@` or a minus and before a
comma. -/
def gap (p q : Piece) : List Piece :=
  if p.source = ['@'] ∨ p.source = ['-'] ∨ q.source = [','] then [] else [.single ' ' .blank]

/-- Words with gaps between them, up to the line feed. -/
def spread : List Piece → List Piece
  | [] => [.single '\n' .newline]
  | [p] => [p, .single '\n' .newline]
  | p :: q :: ps => p :: gap p q ++ spread (q :: ps)

def Row.pieces (r : Row) : List Piece :=
  List.replicate r.depth (.single '\t' .tab) ++ spread r.words

/-- The rows of an outline. -/
def rows (entries : List Entry) : List Row := entries.flatMap Entry.rows

/-- An outline written out. -/
def text (entries : List Entry) : String :=
  .ofList (sources ((rows entries).flatMap Row.pieces))

example :
    text [.definition (.of "path") (.texts (.of "brick") [.of ".png"]),
      .declaration (.texture (.of "brick")
        [.line ⟨.of "imageFile", true, .texts (.of "brick.png") []⟩,
          .filter [⟨.of "mipMaps", false, .flag true⟩]])] =
    "@path = \"brick\" + \".png\"\n" ++
      "texture \"brick\" \x7b\n" ++
      "\timageFile = \"brick.png\"\n" ++
      "\tfilter \x7b\n" ++
      "\t\tmipMaps true\n" ++
      "\t\x7d\n" ++
      "\x7d\n" := by decide +kernel

end MaterialScript.Outline
