/-
What the blocks of a vertex format give.

A format lists the attributes of its blocks in their order. Each is made by its own block:
of the kind and name in the header, with the fields set that the lines of the block name
(`format_given`). A format that breaks off lists the attributes of the blocks before.
-/
import MaterialScript.Proofs.Fields
import MaterialScript.RenderSystem.Recorder

namespace MaterialScript

namespace VertexAttribute

/-- The fields of an attribute that lines set. -/
inductive Field where
  | size | type | normalize | flag
deriving DecidableEq

/-- The type of a field. -/
@[reducible] def Field.Value : Field → Type
  | size => UInt32
  | type => DataType
  | normalize => Bool
  | flag => VertexFlag

/-- The value of a field. -/
def get (a : VertexAttribute) : (f : Field) → f.Value
  | .size => a.size
  | .type => a.dataType
  | .normalize => a.normalize
  | .flag => a.flag

/-- The attribute with another value in one field. -/
def set (a : VertexAttribute) : (f : Field) → f.Value → VertexAttribute
  | .size, v => { a with size := v }
  | .type, v => { a with dataType := v }
  | .normalize, v => { a with normalize := v }
  | .flag, v => { a with flag := v }

theorem get_set_self (a : VertexAttribute) (f : Field) (v : f.Value) : (a.set f v).get f = v := by
  cases f <;> rfl

theorem get_set_of_ne (a : VertexAttribute) {f g : Field} (v : f.Value) (h : f ≠ g) :
    (a.set f v).get g = a.get g := by
  cases f <;> cases g <;> first | rfl | exact absurd rfl h

/-- An attribute has all fields. -/
@[reducible] def fields : Fields VertexAttribute where
  Field := Field
  Value := Field.Value
  get? a f := some (a.get f)
  set := set
  get?_set_self a f v := congrArg some (a.get_set_self f v)
  get?_set_of_ne a _ _ v h := congrArg some (a.get_set_of_ne v h)

/-- The lines of an attribute block. -/
def lines : List fields.Line :=
  [.sets "size" .size (.number Float.toUInt32),
    .sets "type" .type (.keyword DataType.vocabulary),
    .sets "normalize" .normalize .flag,
    .sets "attribute" .flag (.keyword VertexFlag.vocabulary)]

theorem attributes_eq : attributes = lines.map (·.attribute) := rfl

/-- The attribute is of this kind and name, and has in each field the last value given for it, or
the default of its kind. -/
structure MadeOf (a : VertexAttribute) (kind : AttributeKind) (name : String)
    (given : List fields.Setting) : Prop where
  kind_eq : a.kind = kind
  name_eq : a.name = name
  get_eq : ∀ f, a.get f = (Fields.last? given f).getD ((VertexAttribute.ofKind kind).get f)

theorem madeOf_after (kind : AttributeKind) (name : String) (given : List fields.Setting) :
    (fields.after { VertexAttribute.ofKind kind with name } given).MadeOf kind name given := by
  have header : ∀ a : VertexAttribute, (fields.after a given).kind = a.kind ∧
      (fields.after a given).name = a.name := by
    induction given with
    | nil => exact fun a => ⟨rfl, rfl⟩
    | cons x given ih =>
      intro a
      obtain ⟨hkind, hname⟩ := ih (a.set x.1 x.2)
      obtain ⟨f, v⟩ := x
      cases f <;> exact ⟨hkind, hname⟩
  refine ⟨(header _).1, (header _).2, fun f => ?_⟩
  have hlast := fields.get?_after { VertexAttribute.ofKind kind with name } given f
  cases f <;> exact Option.some.inj hlast

end VertexAttribute

namespace Parser

variable {σ : Type}

/-- The header of an attribute block whose keyword has just been read: a quoted name, which is not
empty, where the attribute is universal, and the `{`. -/
inductive AttributeHeaded (s : State (Scene σ)) : AttributeKind → String → State (Scene σ) → Prop
  | universal {name : Token} {v u : State (Scene σ)} : next.run s = (.ok name, v) →
      name.kind = .string → name.text ≠ "" → (expect .leftBrace).run v = (.ok (), u) →
      AttributeHeaded s .universal name.text u
  | other {kind : AttributeKind} {u : State (Scene σ)} : kind ≠ .universal →
      (expect .leftBrace).run s = (.ok (), u) → AttributeHeaded s kind "" u

end Parser

/-- What a line of a vertex format gives: the attribute of its block. -/
inductive VertexFormat.Gives {σ : Type} (s : Parser.State (Scene σ)) :
    List VertexAttribute → Parser.State (Scene σ) → Prop
  | block {kind : AttributeKind} {name : String} {t u : Parser.State (Scene σ)}
      {given : List VertexAttribute.fields.Setting} {a : VertexAttribute} :
      AttributeKind.ofKeyword? s.cursor.current.text = some kind →
      Parser.AttributeHeaded s kind name t →
      Parser.BlockGives (Fields.Gives VertexAttribute.lines) t given u → a.MadeOf kind name given →
      Gives s [a] u

namespace Parser

variable {σ : Type} {s t u w : State (Scene σ)} {e : ScriptError}

/-- Reads the attribute of a block. -/
def readAttribute (kind : AttributeKind) : Parser (Scene σ) VertexAttribute := do
  blockBody componentLine (← attributeHeader kind)

theorem componentLine_sceneFree (a : VertexAttribute) (x : Token) :
    SceneFree (componentLine (σ := σ) a x) :=
  .bind (Attribute.readLine_composed _ x) fun _ => .pure _

theorem readAttribute_sceneFree (kind : AttributeKind) : SceneFree (readAttribute (σ := σ) kind) :=
  .bind (attributeHeader_composed kind) fun a => lines_composed componentLine_sceneFree _ a

theorem attributeBlock_run {x : Token} {kind : AttributeKind}
    (hkind : AttributeKind.ofKeyword? x.text = some kind) (s : State (Scene σ)) :
    (attributeBlock () x).run s =
      (readAttribute kind >>= fun a => modify (Scene.changeVertexFormat (·.push a))).run s := by
  rw [attributeBlock, hkind, readAttribute, run_bind_assoc]

/-! ## Attribute blocks -/

/-- How an attribute block describes its attribute, which is not in the scene yet. -/
def attributeDescription (r : Scene σ) :
    Description (Scene σ) VertexAttribute VertexAttribute VertexAttribute.fields.Setting where
  add a x := a.set x.1 x.2
  carried a := a
  scene _ := r
  around := r

theorem componentLine_gives (r : Scene σ) :
    (attributeDescription r).Follows (Fields.Gives VertexAttribute.lines) componentLine := by
  intro a s b u hs h
  obtain ⟨change, v, hread, h⟩ := run_bind_eq_ok h
  cases h
  rw [VertexAttribute.attributes_eq] at hread
  obtain ⟨given, hgives, hscene, rfl⟩ := readLine_gives hread r
  exact ⟨given, hgives, rfl, hscene.trans hs⟩

theorem componentBody_gives {a₀ a : VertexAttribute}
    (h : (blockBody componentLine a₀).run t = (.ok a, u)) :
    ∃ given, BlockGives (Fields.Gives VertexAttribute.lines) t given u ∧
      a = VertexAttribute.fields.after a₀ given := by
  obtain ⟨given, hgiven, ha, hu⟩ :=
    Description.block_gives (componentLine_gives t.scene) (g := a₀) rfl h
  have hsame : u.inScene t.scene = u := State.inScene_of_eq hu
  exact ⟨given, hsame ▸ hgiven, ha⟩

theorem attributeHeader_eq_ok {kind : AttributeKind} {a : VertexAttribute}
    (h : (attributeHeader kind).run s = (.ok a, u)) :
    ∃ name, AttributeHeaded s kind name u ∧ a = { VertexAttribute.ofKind kind with name } := by
  obtain ⟨name, v, hname, h⟩ := run_bind_eq_ok h
  obtain ⟨_, x, hbrace, h⟩ := run_bind_eq_ok h
  cases h
  refine ⟨name, ?_, rfl⟩
  unfold headerName at hname
  split at hname
  · rename_i huniversal
    subst huniversal
    obtain ⟨t, y, hnext, hname⟩ := run_bind_eq_ok hname
    split at hname
    · rename_i hquoted
      cases hname
      exact .universal hnext hquoted.1 hquoted.2 hbrace
    · cases hname
  · rename_i hother
    cases hname
    exact .other hother hbrace

/-- A block that is read tells its attribute. -/
theorem readAttribute_gives {kind : AttributeKind} {a : VertexAttribute}
    (h : (readAttribute kind).run s = (.ok a, u)) :
    ∃ name t given, AttributeHeaded s kind name t ∧
      BlockGives (Fields.Gives VertexAttribute.lines) t given u ∧ a.MadeOf kind name given := by
  obtain ⟨_, t, hheader, hbody⟩ := run_bind_eq_ok h
  obtain ⟨name, hheaded, rfl⟩ := attributeHeader_eq_ok hheader
  obtain ⟨given, hgiven, rfl⟩ := componentBody_gives hbody
  exact ⟨name, t, given, hheaded, hgiven, VertexAttribute.madeOf_after kind name given⟩

theorem attributeBlock_failsAlone (b : Unit) (x : Token) :
    FailsAlone (attributeBlock (σ := σ) b x) := by
  intro s w e h
  cases hkind : AttributeKind.ofKeyword? x.text with
  | none =>
    rw [attributeBlock, hkind] at h ⊢
    exact SceneFree.failsAlone (unexpectedName_composed x) h
  | some kind =>
    rw [attributeBlock_run hkind, run_bind] at h
    split at h
    · cases h
    · rename_i hrun
      cases h
      obtain ⟨hscene, hruns⟩ := (readAttribute_sceneFree kind).failsAlone hrun
      refine ⟨hscene, fun r => ?_⟩
      rw [attributeBlock_run hkind]
      exact run_bind_of_error (hruns r)

/-- An attribute block that is read adds its attribute, the same one in every scene. -/
theorem attributeBlock_adds (h : (attributeBlock () s.cursor.current).run s = (.ok (), u))
    (around : Scene σ) :
    ∃ a, VertexFormat.Gives (s.inScene around) [a] (u.inScene around) ∧
      ∀ r, (attributeBlock () s.cursor.current).run (s.inScene r) =
        (.ok (), u.inScene (r.changeVertexFormat (·.push a))) := by
  cases hkind : AttributeKind.ofKeyword? s.cursor.current.text with
  | none =>
    rw [attributeBlock, hkind] at h
    cases h
  | some kind =>
    rw [attributeBlock_run hkind] at h
    obtain ⟨a, v, hrun, h⟩ := run_bind_eq_ok h
    cases h
    have hread := (readAttribute_sceneFree (σ := σ) kind).run_inScene hrun
    obtain ⟨name, t, given, hheaded, hgiven, hmade⟩ := readAttribute_gives (hread around)
    refine ⟨a, .block hkind hheaded hgiven hmade, fun r => ?_⟩
    rw [attributeBlock_run hkind, run_bind_of_ok (hread r)]
    rfl

/-! ## Vertex formats -/

/-- How a format block describes the attributes of the format that has been added to `r`. -/
def formatDescription (r : Scene Recorder) (name : String) :
    Description (Scene Recorder) Unit (List VertexAttribute) VertexAttribute where
  add l a := l ++ [a]
  carried _ := ()
  scene l := { r.addVertexFormat name with vertexFormats := r.vertexFormats.push name ⟨l⟩ }
  around := r

theorem formatDescription_after (r : Scene Recorder) (name : String)
    (l given : List VertexAttribute) : (formatDescription r name).after l given = l ++ given := by
  induction given generalizing l with
  | nil => exact (List.append_nil l).symm
  | cons a given ih => exact (ih (l ++ [a])).trans (by simp)

theorem attributeBlock_gives (r : Scene Recorder) (name : String) :
    (formatDescription r name).Follows VertexFormat.Gives attributeBlock := by
  intro l s _ u hs h
  obtain ⟨a, hgives, hruns⟩ := attributeBlock_adds h r
  refine ⟨[a], hgives, rfl, ?_⟩
  have hsame := hruns s.scene
  rw [State.inScene_of_eq rfl, h] at hsame
  have hscene : u.scene = s.scene.changeVertexFormat (·.push a) :=
    congrArg (fun x => x.2.scene) hsame
  rw [hscene, hs, Scene.changeVertexFormat]
  simp only [formatDescription, Catalog.modifyCurrent_push]
  rfl

theorem vertexFormatHeader_eq_ok [RenderSystem σ] {name : String}
    (h : vertexFormatHeader.run s = (.ok name, u)) :
    Headed .vertexFormat s name (u.inScene s.scene) ∧ u.scene = s.scene.addVertexFormat name := by
  obtain ⟨t, v, hname, h⟩ := run_bind_eq_ok h
  obtain ⟨_, x, hfree, h⟩ := run_bind_eq_ok h
  obtain ⟨_, y, hrefuse, h⟩ := run_bind_eq_ok h
  obtain ⟨_, z, hbrace, h⟩ := run_bind_eq_ok h
  cases h
  unfold failIf at hfree
  split at hfree <;> cases hfree
  have hheaded : Headed .vertexFormat s t.text z := by
    refine ⟨y, ?_, hbrace⟩
    rw [newName, run_bind_of_ok hname, run_bind_of_ok hrefuse]
    rfl
  exact ⟨hheaded.inScene_self, congrArg (Scene.addVertexFormat t.text) hheaded.scene_eq⟩

/-- The header of a format adds a format without attributes. -/
theorem vertexFormatHeader_starts {s u : State (Scene Recorder)} {name : String}
    (h : vertexFormatHeader.run s = (.ok name, u)) :
    Headed .vertexFormat s name (u.inScene s.scene) ∧
      u.scene = (formatDescription s.scene name).scene [] := by
  obtain ⟨hheaded, hu⟩ := vertexFormatHeader_eq_ok h
  refine ⟨hheaded, hu.trans ?_⟩
  exact congrArg (fun c => { s.scene.addVertexFormat name with vertexFormats := c })
    (Catalog.insert_of_not_mem hheaded.not_mem _)

end Parser

end MaterialScript
