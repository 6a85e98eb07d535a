/-
What the report of an error shows of the script.

Two sides must agree on what a line and a column are. The place of an error is
told from the text before it, by the line feeds there and the characters after
the last of them (`Position.ofPrefix`); the report takes the script apart into
lines without their ends (`Text.lines`), picks one by its number and puts a
caret below it. A `TextLine` is a line for both: the text it says, how it ends,
and what stands above and below. The place of every error is on such a line, and
the caret stands below what is there (`Loader.readSource_reported`).
-/
import MaterialScript.Proofs.Location
import MaterialScript.Report.Excerpt

namespace MaterialScript

/-! ## Lines of a text -/

namespace Text

/-- How a line that says `text` may end: with a line feed, which takes one carriage return before
it along, or with the whole text, if it says something. -/
inductive Closes (text : List Char) : (ending below : List Char) → Prop
  | lineFeed {below : List Char} : text.getLast? ≠ some '\r' → Closes text ['\n'] below
  | carriageReturn {below : List Char} : Closes text ['\r', '\n'] below
  | endOfText : text ≠ [] → Closes text [] []

/-- A character that does not end a line belongs to the one that follows. -/
theorem lines_cons {c : Char} {cs line : List Char} {more : List (List Char)} (hc : c ≠ '\n')
    (hcr : c = '\r' → cs.head? ≠ some '\n') (hlines : lines cs = line :: more) :
    lines (c :: cs) = (c :: line) :: more := by
  rw [lines, hlines]
  · exact hc
  · rintro cs' hc' rfl
    exact hcr hc' rfl

theorem lines_ne_nil {text : List Char} (h : text ≠ []) : lines text ≠ [] := by
  fun_cases lines text with
  | case1 => exact absurd rfl h
  | _ => simp

/-- A line is taken as it is, and without its end. -/
theorem lines_closes {text ending below : List Char} (h : Closes text ending below)
    (hfeed : '\n' ∉ text) : lines (text ++ (ending ++ below)) = text :: lines below := by
  induction text with
  | nil =>
    cases h with
    | lineFeed => simp [lines]
    | carriageReturn => simp [lines]
    | endOfText hne => exact absurd rfl hne
  | cons c text ih =>
    obtain ⟨hc, hfeed⟩ : c ≠ '\n' ∧ '\n' ∉ text := by simpa [eq_comm] using hfeed
    -- one character of the text is left: what follows it cannot end the line with it
    rcases text with _ | ⟨d, text⟩
    · cases h with
      | lineFeed hlast =>
        have hcr : c ≠ '\r' := by simpa using hlast
        exact lines_cons hc (fun h => absurd h hcr) (by simp [lines])
      | carriageReturn => exact lines_cons hc (by simp) (by simp [lines])
      | endOfText => simp [lines]
    · have hd : d ≠ '\n' := fun hd => hfeed (by simp [hd])
      refine lines_cons hc (by simp [hd]) (ih ?_ hfeed)
      cases h with
      | lineFeed hlast => exact .lineFeed (by simpa using hlast)
      | carriageReturn => exact .carriageReturn
      | endOfText => exact .endOfText (by simp)

/-- As many lines stand in front of the start of a line as there are line feeds. -/
theorem drop_lines {above : List Char} (h : above = [] ∨ above.getLast? = some '\n')
    (tail : List Char) : (lines (above ++ tail)).drop (above.count '\n') = lines tail := by
  fun_induction lines above with
  | case1 => rfl
  | case2 cs ih => simpa [lines] using ih (by cases cs <;> simp_all)
  | case3 cs ih => simpa [lines] using ih (by cases cs <;> simp_all)
  | case4 c cs hc _ hcs =>
    have hnil : cs = [] := by
      by_contra hne
      exact lines_ne_nil hne hcs
    simp_all
  | case5 c cs hc hcr line more hcs ih =>
    rcases cs with _ | ⟨d, cs⟩
    · cases hcs
    have hlast : (d :: cs).getLast? = some '\n' := by simpa using h
    -- the first line goes on, so it is still the first one that is dropped
    obtain ⟨n, hn⟩ : ∃ n, (d :: cs).count '\n' = n + 1 :=
      Nat.exists_eq_add_one.2 (List.count_pos_iff.2 (List.mem_of_getLast? hlast))
    obtain ⟨line', more', hlines⟩ : ∃ line' more', lines (d :: cs ++ tail) = line' :: more' :=
      List.exists_cons_of_ne_nil (lines_ne_nil (by simp))
    have hcount : (c :: d :: cs).count '\n' = n + 1 := by
      rw [List.count_cons_of_ne (fun h => hc h), hn]
    have hdrop := ih (.inr hlast)
    rw [hn, hlines, List.drop_succ_cons] at hdrop
    rw [hcount, List.cons_append, lines_cons (fun h => hc h) ?_ hlines, List.drop_succ_cons, hdrop]
    rintro rfl hd
    exact hcr cs rfl (by simpa using hd)

/-- A line feed closes the text in front of it, with or without a carriage return. -/
theorem exists_closes {body : List Char} (h : '\n' ∉ body) (below : List Char) :
    ∃ text ending, body ++ ['\n'] = text ++ ending ∧ '\n' ∉ text ∧ Closes text ending below := by
  by_cases hlast : body.getLast? = some '\r'
  · obtain ⟨text, rfl⟩ := List.getLast?_eq_some_iff.1 hlast
    exact ⟨text, ['\r', '\n'], by simp, by simpa using h, .carriageReturn⟩
  · exact ⟨body, ['\n'], rfl, h, .lineFeed hlast⟩

/-- The front of a text ends with the start of a line and what stands on that line. -/
theorem exists_start (before : List Char) :
    ∃ above passed, before = above ++ passed ∧ (above = [] ∨ above.getLast? = some '\n') ∧
      '\n' ∉ passed := by
  by_cases hfeed : '\n' ∈ before.reverse
  · obtain ⟨passed, above, hbefore, hpassed⟩ := List.eq_append_cons_of_mem hfeed
    refine ⟨above.reverse ++ ['\n'], passed.reverse, ?_, by simp, by simpa using hpassed⟩
    rw [← List.reverse_reverse before, hbefore]
    simp
  · exact ⟨[], before, rfl, .inl rfl, by simpa using hfeed⟩

end Text

/-- A line of a text: what it says and how it ends, with what stands above and below it. -/
structure TextLine (source : List Char) where
  above : List Char
  text : List Char
  ending : List Char
  below : List Char
  source_eq : source = above ++ (text ++ (ending ++ below))
  starts : above = [] ∨ above.getLast? = some '\n'
  feedless : '\n' ∉ text
  closes : Text.Closes text ending below

namespace TextLine

variable {source before rest : List Char}

/-- The number of the line, counted from one. -/
def number (line : TextLine source) : Nat := 1 + line.above.count '\n'

/-- The place in front of the `n`-th character is on the line: before a character of its text or of
its end, or behind its text if that ends the whole. -/
def Holds (line : TextLine source) (n : Nat) : Prop :=
  line.above.length ≤ n ∧
    (n < line.above.length + line.text.length + line.ending.length ∨
      line.ending = [] ∧ n = line.above.length + line.text.length)

/-- The line is the one of its number. -/
theorem getElem?_lines (line : TextLine source) :
    (Text.lines source)[line.number - 1]? = some line.text := by
  have hdrop := Text.drop_lines line.starts (line.text ++ (line.ending ++ line.below))
  rw [← line.source_eq, Text.lines_closes line.closes line.feedless] at hdrop
  rw [number, Nat.add_sub_cancel_left, ← List.head?_drop, hdrop, List.head?_cons]

/-- What stands on a line in front of a place it holds, and what is left of it. -/
theorem Holds.split {line : TextLine source} (hsource : source = before ++ rest)
    (h : line.Holds before.length) :
    ∃ passed left, before = line.above ++ passed ∧ line.text ++ line.ending = passed ++ left ∧
      rest = left ++ line.below ∧ (left = [] → line.ending = []) := by
  obtain ⟨hstart, hend⟩ := h
  have hwhole := hsource.symm.trans line.source_eq
  obtain ⟨passed, rfl⟩ : line.above <+: before :=
    List.prefix_of_prefix_length_le ⟨_, hwhole.symm⟩ (List.prefix_append ..) hstart
  rw [List.append_assoc, List.append_cancel_left_eq, ← List.append_assoc] at hwhole
  rw [List.length_append] at hend
  obtain ⟨left, hleft⟩ : passed <+: line.text ++ line.ending := by
    refine List.prefix_of_prefix_length_le ⟨rest, hwhole⟩ (List.prefix_append ..) ?_
    rw [List.length_append]
    omega
  refine ⟨passed, left, rfl, hleft.symm, ?_, ?_⟩
  · rwa [← hleft, List.append_assoc, List.append_cancel_left_eq] at hwhole
  · rintro rfl
    have hlength := congrArg List.length hleft
    simp only [List.length_append, List.length_nil] at hlength
    exact hend.elim (fun hlt => absurd hlt (by omega)) And.left

/-- The text in front of a place on a line is part of what the line says, and of the line's end a
carriage return at most. -/
theorem passed_cases (line : TextLine source) {passed left : List Char}
    (hsplit : line.text ++ line.ending = passed ++ left) (hleft : left = [] → line.ending = []) :
    passed <+: line.text ∨ line.ending = ['\r', '\n'] ∧ passed = line.text ++ ['\r'] := by
  have hclosed : ∀ {text : List Char} {c : Char}, text ++ [c] = passed ++ left → left ≠ [] →
      passed <+: text := by
    intro text c h hne
    refine (List.prefix_concat_iff.1 ⟨left, h.symm⟩).resolve_left fun hpassed => hne ?_
    simpa [hpassed] using h
  have hcloses := line.closes
  generalize line.ending = ending, line.below = below at *
  cases hcloses with
  | lineFeed => exact .inl (hclosed hsplit (mt hleft (by simp)))
  | carriageReturn =>
    have hpassed : passed <+: line.text ++ ['\r'] :=
      hclosed (by simpa using hsplit) (mt hleft (by simp))
    exact (List.prefix_concat_iff.1 hpassed).symm.imp_right fun h => ⟨rfl, h⟩
  | endOfText => exact .inl ⟨left, by simpa using hsplit.symm⟩

theorem feedless_of_split (line : TextLine source) {passed left : List Char}
    (hsplit : line.text ++ line.ending = passed ++ left) (hleft : left = [] → line.ending = []) :
    '\n' ∉ passed := by
  rcases line.passed_cases hsplit hleft with ⟨more, hmore⟩ | ⟨-, rfl⟩
  · exact fun h => line.feedless (by simp [← hmore, h])
  · simp [line.feedless]

/-- The place of an error is the number of its line and the number of characters before it there,
counted from one. -/
theorem ofPrefix_eq (line : TextLine source) {passed : List Char} (h : '\n' ∉ passed) :
    Position.ofPrefix (line.above ++ passed) = ⟨line.number, 1 + passed.length⟩ := by
  have hpassed : passed.reverse.takeWhile (· != '\n') = passed.reverse := by
    rw [List.takeWhile_eq_self_iff]
    intro c hc
    simpa using fun heq : c = '\n' => h (heq ▸ List.mem_reverse.1 hc)
  have habove : line.above.reverse.takeWhile (· != '\n') = [] := by
    rcases line.starts with habove | habove
    · rw [habove]
      rfl
    · obtain ⟨front, habove⟩ := List.getLast?_eq_some_iff.1 habove
      simp [habove]
  rw [Position.ofPrefix, List.count_append, List.count_eq_zero.2 h, List.reverse_append,
    List.takeWhile_append, hpassed, habove]
  simp [number]

/-- Every place of a text is on a line, unless no text is left and none stands before it on its
line. -/
theorem exists_holds (hsource : source = before ++ rest)
    (h : ¬(rest = [] ∧ (before = [] ∨ before.getLast? = some '\n'))) :
    ∃ line : TextLine source, line.Holds before.length := by
  obtain ⟨above, passed, rfl, hstarts, hpassed⟩ := Text.exists_start before
  by_cases hfeed : '\n' ∈ rest
  · obtain ⟨left, below, rfl, hleft⟩ := List.eq_append_cons_of_mem hfeed
    obtain ⟨text, ending, hbody, hfeedless, hcloses⟩ :=
      Text.exists_closes (show '\n' ∉ passed ++ left by simp [hpassed, hleft]) below
    refine ⟨⟨above, text, ending, below, ?_, hstarts, hfeedless, hcloses⟩, by simp, .inl ?_⟩
    · rw [hsource, ← List.append_assoc text, ← hbody]
      simp
    · have hlength := congrArg List.length hbody
      simp only [List.length_append, List.length_singleton] at hlength ⊢
      omega
  · have hne : passed ++ rest ≠ [] := by
      rintro hnil
      obtain ⟨rfl, rfl⟩ := List.append_eq_nil_iff.1 hnil
      simp [hstarts] at h
    refine ⟨⟨above, passed ++ rest, [], [], by simp [hsource], hstarts, by simp [hpassed, hfeed],
      .endOfText hne⟩, by simp, ?_⟩
    rcases rest with _ | ⟨c, rest⟩
    · exact .inr ⟨rfl, by simp⟩
    · exact .inl (by simp)

/-- A text that is empty or ends with a line feed has no line at its end. -/
theorem not_holds_length (h : source = [] ∨ source.getLast? = some '\n')
    (line : TextLine source) : ¬line.Holds source.length := by
  intro hholds
  obtain ⟨-, left, -, -, hrest, hending⟩ := hholds.split (List.append_nil source).symm
  obtain ⟨rfl, hbelow⟩ := List.append_eq_nil_iff.1 hrest.symm
  have hsource := line.source_eq
  have hcloses := line.closes
  rw [hending rfl, hbelow] at hcloses hsource
  obtain ⟨front, c, htext⟩ : ∃ front c, line.text = front ++ [c] := by
    cases hcloses with
    | endOfText hne => exact (List.eq_nil_or_concat' line.text).resolve_left hne
  have hc : source.getLast? = some c := by simp [hsource, htext]
  rcases h with rfl | h
  · cases hc
  · obtain rfl : c = '\n' := Option.some.inj (hc.symm.trans h)
    exact line.feedless (by simp [htext])

/-! ## Excerpts -/

/-- The line as it is printed, behind a gutter with its number. -/
def printed (line : TextLine source) : String :=
  Report.gutter line.number ++ String.ofList line.text

/-- What a caret below the printed line points at: the character that is the first of `rest`, the
end of what the line says, or the line feed after a carriage return, which counts as a character. -/
inductive Marks (line : TextLine source) (rest : List Char) (index : Nat) : Prop
  | character {c : Char} {more : List Char} : rest = c :: more →
      line.printed.toList[index]? = some c → Marks line rest index
  | lineEnd : rest = line.ending ++ line.below → index = line.printed.length →
      Marks line rest index
  | lineFeed : line.ending = ['\r', '\n'] → rest = '\n' :: line.below →
      index = line.printed.length + 1 → Marks line rest index

/-- As many characters behind the gutter as the place is behind the start of its line, the printed
line has what is at the place. -/
theorem marks_of_split (line : TextLine source) {passed left : List Char}
    (hsplit : line.text ++ line.ending = passed ++ left) (hrest : rest = left ++ line.below)
    (hleft : left = [] → line.ending = []) :
    line.Marks rest ((Report.gutter line.number).length + passed.length) := by
  rcases line.passed_cases hsplit hleft with ⟨more, hmore⟩ | ⟨hending, hpassed⟩
  · rw [← hmore, List.append_assoc, List.append_cancel_left_eq] at hsplit
    rcases more with _ | ⟨c, more⟩
    · refine .lineEnd (by simp [hrest, ← hsplit]) ?_
      simp [printed, ← hmore]
    · refine .character (c := c) (by simp [hrest, ← hsplit]; rfl) ?_
      rw [printed, String.toList_append, String.toList_ofList, ← hmore, ← String.length_toList,
        ← List.append_assoc, ← List.length_append, List.getElem?_append_right (Nat.le_refl _)]
      simp
  · rw [hending, hpassed] at hsplit
    obtain rfl : left = ['\n'] := by simpa using hsplit.symm
    refine .lineFeed hending (by simp [hrest]) ?_
    simp [printed, hpassed, Nat.add_assoc]

end TextLine

namespace Report

/-- The line of a marker: blanks in front of the caret, and a note behind it. -/
def caret (index : Nat) : String :=
  String.ofList (List.replicate index ' ') ++ "^" ++ " error here"

/-- The excerpt for a place is the line that holds it, with a caret at the place. -/
theorem excerpt_of_holds {source : String} {before rest : List Char}
    (hsource : source.toList = before ++ rest) {line : TextLine source.toList}
    (h : line.Holds before.length) :
    ∃ index, index = (gutter line.number).length + (before.length - line.above.length) ∧
      line.Marks rest index ∧
      (excerpt source (Position.ofPrefix before).row (Position.ofPrefix before).column).map
        StyledLine.seen = ["     |", line.printed, caret index, "     |"] := by
  obtain ⟨passed, left, rfl, hsplit, hrest, hleft⟩ := h.split hsource
  refine ⟨_, rfl, ?_, ?_⟩
  · rw [List.length_append, Nat.add_sub_cancel_left]
    exact line.marks_of_split hsplit hrest hleft
  · have hline : (Text.linesOf source)[line.number - 1]? = some (String.ofList line.text) := by
      rw [Text.linesOf, List.getElem?_map, line.getElem?_lines]
      rfl
    rw [line.ofPrefix_eq (line.feedless_of_split hsplit hleft), excerpt, hline]
    simp [StyledLine.seen, marker, caret, TextLine.printed, Span.plain, Span.faint, Span.red,
      Span.inked]

/-- At the end of a text without a line there, there is no excerpt. -/
theorem excerpt_eq_nil {source : String}
    (h : source.toList = [] ∨ source.toList.getLast? = some '\n') (column : Nat) :
    excerpt source (Position.ofPrefix source.toList).row column = [] := by
  have hdrop := Text.drop_lines h []
  rw [List.append_nil] at hdrop
  have hnone : (Text.linesOf source)[source.toList.count '\n']? = none := by
    rw [Text.linesOf, List.getElem?_map, ← List.head?_drop, hdrop]
    rfl
  rw [excerpt, Position.ofPrefix, Nat.add_sub_cancel_left, hnone]

/-- A report of an error with a place shows the place and the excerpt between the fault and the
help. -/
theorem scriptError_seen (label source : String) (p : Position) (fault : Fault) :
    (scriptError label source (.placed p fault)).map StyledLine.seen =
      [label ++ ": " ++ fault.message,
        "  --> line " ++ toString p.row ++ ", column " ++ toString p.column] ++
      (excerpt source p.row p.column).map StyledLine.seen ++ (help fault).map StyledLine.seen := by
  simp [scriptError, location, ScriptError.placed, StyledLine.seen, Span.alarm, Span.plain,
    Span.red, Span.inked, String.append_assoc]

end Report

namespace Loader

variable {σ : Type} [RenderSystem σ]

/-- **The report of an error shows the line the error is on and points at its place.** A load of a
text that fails has found that the text declares nothing, or its error is about what stands behind
the text `before`. The report names the fault and the place, and then shows
- the line of the text that holds the place, behind a gutter with its number, and a caret with as
  many blanks before it as the gutter has characters and the line has in front of the place. Below
  the printed line it marks the character the error is about, or the end of what the line says, or
  the line feed behind that and a carriage return;
- nothing if no line of the text holds the place. -/
theorem readSource_reported (l : Loader σ) (files : Files) (label source : String)
    {e : ScriptError} (h : (l.readSource files source).1 = .error e) :
    e = .unplaced .invalidTokenStream ∨
      ∃ before rest shown, source.toList = before ++ rest ∧
        e = .placed (.ofPrefix before) e.fault ∧
        (Source.tokens source = .error e ∧ Source.Blames e.fault rest ∨
          ∃ tokens t, Source.tokens source = .ok tokens ∧ t ∈ tokens ∧ StartsAt before rest t ∧
            l.FailsAt files tokens e t) ∧
        (Report.scriptError label source e).map StyledLine.seen =
          [label ++ ": " ++ e.fault.message,
            "  --> line " ++ toString (Position.ofPrefix before).row ++ ", column " ++
              toString (Position.ofPrefix before).column] ++
          shown ++ (Report.help e.fault).map StyledLine.seen ∧
        ((∃ (line : TextLine source.toList) (index : Nat), line.Holds before.length ∧
            index =
              (Report.gutter line.number).length + (before.length - line.above.length) ∧
            line.Marks rest index ∧
            shown = ["     |", line.printed, Report.caret index, "     |"]) ∨
          (∀ line : TextLine source.toList, ¬line.Holds before.length) ∧ shown = []) := by
  refine (readSource_failsAt l files source h).imp_right ?_
  rintro ⟨-, before, rest, hsource, hplaced, habout⟩
  have hseen := Report.scriptError_seen label source (.ofPrefix before) e.fault
  rw [← hplaced] at hseen
  by_cases hend : rest = [] ∧ (before = [] ∨ before.getLast? = some '\n')
  · obtain ⟨rfl, hend⟩ := hend
    obtain rfl : source.toList = before := by simpa using hsource
    rw [Report.excerpt_eq_nil hend] at hseen
    exact ⟨source.toList, [], [], hsource, hplaced, habout, hseen,
      .inr ⟨TextLine.not_holds_length hend, rfl⟩⟩
  · obtain ⟨line, hholds⟩ := TextLine.exists_holds hsource hend
    obtain ⟨index, hindex, hmarks, hexcerpt⟩ := Report.excerpt_of_holds hsource hholds
    exact ⟨before, rest, _, hsource, hplaced, habout, hexcerpt ▸ hseen,
      .inl ⟨line, index, hholds, hindex, hmarks, rfl⟩⟩

/-- A value is missing where a line ends with a carriage return and a line feed. -/
theorem readSource_reported_missing_value :
    let source := "@x = \"λ\" + \r\n"
    let e := ScriptError.placed ⟨1, 13⟩ (.unexpectedToken "new-line")
    ((Loader.new Recorder.default "/").readSource (fun _ => .error .notFound) source).1 = .error e ∧
      ∃ (line : TextLine source.toList) (index : Nat),
        (Report.scriptError "Script error" source e).map StyledLine.seen =
          ["Script error: unexpected new-line", "  --> line 1, column 13", "     |", line.printed,
            Report.caret index, "     |"] := by
  intro source e
  have hread : ((Loader.new Recorder.default "/").readSource (fun _ => .error .notFound)
      source).1 = .error e := by decide +kernel
  refine ⟨hread, ?_⟩
  obtain ⟨before, rest, shown, -, hplaced, -, hseen, hshown⟩ :=
    (readSource_reported _ _ "Script error" source hread).resolve_left (by decide)
  obtain ⟨hrow, hcolumn⟩ :
      1 = (Position.ofPrefix before).row ∧ 13 = (Position.ofPrefix before).column := by
    simpa [e, ScriptError.placed] using hplaced
  rw [← hrow, ← hcolumn] at hseen
  rcases hshown with ⟨line, index, -, -, -, rfl⟩ | ⟨-, rfl⟩
  · exact ⟨line, index, hseen⟩
  · exact absurd hseen (by decide +kernel)

/-- The caret counts the carriage return. -/
example : (Report.excerpt "@x = \"λ\" + \r\n" 1 13).map StyledLine.seen =
    ["     |",
      "  1 | @x = \"λ\" + ",
      "                  ^ error here",
      "     |"] := by
  decide +kernel

end Loader

end MaterialScript
