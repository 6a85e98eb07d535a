/-
The code of a shader source file.

A file is taken over line by line. The lines hold no line feed and each gets one
back, so nothing of the file is lost but the carriage returns that belong to an
end of line; the last line may gain the line feed it lacks (`Text.terminated`).
A `sourceFile` line appends these lines to the stage it stands in
(`Parser.sourceFile_line`).
-/
import MaterialScript.Proofs.Excerpts
import MaterialScript.Proofs.Stages

namespace MaterialScript

/-! ## Lines put together again -/

namespace Text

/-- A text with a line feed for every carriage return that a line feed follows, and this. -/
def crlfToLf : List Char → List Char
  | [] => []
  | '\r' :: '\n' :: cs => '\n' :: crlfToLf cs
  | c :: cs => c :: crlfToLf cs

/-- The line feed that a text lacks at its end; an empty text lacks none. -/
def lackedFeed (cs : List Char) : List Char :=
  if cs = [] ∨ cs.getLast? = some '\n' then [] else ['\n']

/-- A text with all its lines ended by a line feed. -/
def terminated (text : String) : String :=
  String.ofList (crlfToLf text.toList ++ lackedFeed text.toList)

theorem crlfToLf_cons {c : Char} {cs : List Char} (h : c = '\r' → cs.head? ≠ some '\n') :
    crlfToLf (c :: cs) = c :: crlfToLf cs := by
  rw [crlfToLf]
  rintro cs' hc rfl
  exact h hc rfl

theorem lackedFeed_cons {cs : List Char} (h : cs ≠ []) (c : Char) :
    lackedFeed (c :: cs) = lackedFeed cs := by
  obtain ⟨d, cs, rfl⟩ := List.exists_cons_of_ne_nil h
  simp [lackedFeed]

theorem lackedFeed_lineFeed_cons (cs : List Char) : lackedFeed ('\n' :: cs) = lackedFeed cs := by
  cases cs with
  | nil => rfl
  | cons d cs => exact lackedFeed_cons (by simp) _

theorem not_mem_of_mem_lines {cs line : List Char} (h : line ∈ lines cs) : '\n' ∉ line := by
  fun_induction lines cs generalizing line with
  | case1 => cases h
  | case2 cs ih | case3 cs ih =>
    rcases List.mem_cons.1 h with rfl | h
    · exact List.not_mem_nil
    · exact ih h
  | case4 c cs hc =>
    obtain rfl := List.mem_singleton.1 h
    simpa using fun h => hc h.symm
  | case5 c cs hc _ first more hcs ih =>
    rcases List.mem_cons.1 h with rfl | h
    · have hfirst : '\n' ∉ first := ih (hcs ▸ List.mem_cons_self)
      simpa [hfirst] using fun h => hc h.symm
    · exact ih (hcs ▸ List.mem_cons_of_mem _ h)

/-- Lines with a line feed after each of them are the text again, with all its lines ended. -/
theorem flatMap_lines (cs : List Char) :
    (lines cs).flatMap (· ++ ['\n']) = crlfToLf cs ++ lackedFeed cs := by
  fun_induction lines cs with
  | case1 => rfl
  | case2 cs ih =>
    rw [List.flatMap_cons, ih, lackedFeed_lineFeed_cons, crlfToLf_cons (by simp)]
    rfl
  | case3 cs ih =>
    rw [List.flatMap_cons, ih, lackedFeed_cons (by simp), lackedFeed_lineFeed_cons]
    rfl
  | case4 c cs hc _ hcs =>
    obtain rfl : cs = [] := by
      by_contra hne
      exact lines_ne_nil hne hcs
    have hc : c ≠ '\n' := fun h => hc h
    simp [crlfToLf, lackedFeed, hc]
  | case5 c cs hc hcr first more hcs ih =>
    have hne : cs ≠ [] := by
      rintro rfl
      cases hcs
    have hhead : c = '\r' → cs.head? ≠ some '\n' := fun hc h => by
      obtain ⟨cs', rfl⟩ := List.head?_eq_some_iff.1 h
      exact hcr cs' hc rfl
    rw [crlfToLf_cons hhead, lackedFeed_cons hne, List.cons_append, ← ih, hcs]
    simp

end Text

namespace StageDraft

/-- A piece of code that is one line. -/
def OneLine (code : String) : Prop := ∃ text, code = text ++ "\n" ∧ '\n' ∉ text.toList

theorem codeOfFile_oneLine {content code : String} (h : code ∈ codeOfFile content) :
    OneLine code := by
  obtain ⟨_, htext, rfl⟩ := List.mem_map.1 h
  obtain ⟨line, hline, rfl⟩ := List.mem_map.1 htext
  exact ⟨_, rfl, by simpa using Text.not_mem_of_mem_lines hline⟩

theorem join_codeOfFile (content : String) :
    String.join (codeOfFile content) = Text.terminated content := by
  apply String.toList_inj.1
  rw [Text.terminated, String.toList_ofList, ← Text.flatMap_lines, codeOfFile, Text.linesOf]
  simp [String.toList_join, List.flatMap_map]

end StageDraft

/-! ## The line of a stage -/

namespace Parser

variable {σ : Type} {s u : State (Scene σ)} {t : Token} {path content : String}

theorem requireVersion_run (h : s.scene.drafts.stage.hasVersion) :
    (requireVersion t).run s = (.ok (), s) := by
  change (failIf (!s.scene.drafts.stage.hasVersion) t .missingShaderVersion).run s = (.ok (), s)
  rw [h]
  rfl

theorem codeFromFile_run (hpath : text.run s = (.ok path, u))
    (hfile : s.scene.files path = .ok content) :
    codeFromFile.run s = (.ok (StageDraft.codeOfFile content),
      { u with scene := (s.scene.readFile path).2 }) := by
  have hscene := scene_eq_of_run text_composed hpath
  rw [codeFromFile, run_bind_of_ok hpath]
  have hread : (build (Scene.readFile path)).run u =
      (.ok (.ok content), { u with scene := (s.scene.readFile path).2 }) := by
    simp [build, Scene.readFile, hscene, hfile]
  rw [run_bind_of_ok hread]
  rfl

/-- **A shader source file is taken over line by line, without loss.** Wherever a stage has a
version, a `sourceFile` line whose file can be read succeeds. It appends code to what the stage has
so far and changes nothing else than reading the path and the file does:
- each piece of that code ends with a line feed and holds no other;
- put together the pieces are the text of the file, with a line feed for every carriage return and
  line feed, and one more if the text is not empty and does not end with a line feed;
- an empty file has no pieces. -/
theorem sourceFile_line (hline : t.isName "sourceFile") (hversion : s.scene.drafts.stage.hasVersion)
    (hpath : text.run s = (.ok path, u)) (hfile : s.scene.files path = .ok content) :
    ∃ code v, (line stageLine () t).run s = (.ok (), v) ∧
      v = { u with scene := (s.scene.readFile path).2.changeStage (.add code) } ∧
      v.scene.drafts.stage.source = s.scene.drafts.stage.source ++ code ∧
      (∀ piece ∈ code, StageDraft.OneLine piece) ∧
      String.join code = Text.terminated content ∧
      (content = "" → code = []) := by
  obtain ⟨-, htext⟩ := Token.isName_iff.1 hline
  refine ⟨StageDraft.codeOfFile content, _, ?_, rfl, rfl,
    fun piece => StageDraft.codeOfFile_oneLine, StageDraft.join_codeOfFile content, ?_⟩
  · rw [line_of_isName hline (by decide), stageLine, htext]
    change (requireVersion t >>= fun _ => codeFromFile >>= fun code =>
      modify (Scene.changeStage (.add code))).run s = _
    rw [run_bind_of_ok (requireVersion_run hversion), run_bind_of_ok (codeFromFile_run hpath hfile)]
    rfl
  · rintro rfl
    rfl

/-- A file with all kinds of ends of line, but none after the last line, and carriage returns that
belong to no end. -/
theorem sourceFile_line_mixed_ends :
    let content := "a\r\n\nb\rc\r\r\n\nlast"
    let tokens : List Token := [⟨.name, "sourceFile", .start⟩, ⟨.string, "s.vert", .start⟩,
      .bare .endOfFile .start]
    let start :=
      ((Loader.new Recorder.default "/").start (fun _ => .ok content) tokens).advance true
    let s := { start with
      scene := start.scene.changeStage fun _ => ⟨.glsl120, ["version\n"]⟩ }
    let t := s.cursor.current
    let u := (text.run s).2
    t.isName "sourceFile" ∧ s.scene.drafts.stage.hasVersion ∧ text.run s = (.ok "s.vert", u) ∧
      (∃ code v, (line stageLine () t).run s = (.ok (), v) ∧
        v = { u with scene := (s.scene.readFile "s.vert").2.changeStage (.add code) } ∧
        v.scene.drafts.stage.source = s.scene.drafts.stage.source ++ code ∧
        (∀ piece ∈ code, StageDraft.OneLine piece) ∧
        String.join code = Text.terminated content ∧ (content = "" → code = [])) ∧
      Text.terminated content = "a\n\nb\rc\r\n\nlast\n" ∧
      ((line stageLine () t).run s).2.scene.drafts.stage.source =
        ["version\n", "a\n", "\n", "b\rc\r\n", "\n", "last\n"] := by
  intro content tokens start s t u
  have hanswer : (text.run s).1 = .ok "s.vert" := by decide +kernel
  have hpath : text.run s = (.ok "s.vert", u) := run_of_answer hanswer
  have hline : t.isName "sourceFile" := by decide
  have hversion : s.scene.drafts.stage.hasVersion := by decide
  exact ⟨hline, hversion, hpath, sourceFile_line hline hversion hpath rfl, by decide +kernel,
    by decide +kernel⟩

end Parser

end MaterialScript
