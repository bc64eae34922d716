/-
**Whose line is it?**

A line of the conversation is read by how it begins. The text of a message is pasted behind its
prefix with its own line breaks, and rendering breaks it anywhere, so a bracket in it can come to
stand at the beginning of a line.

* `Attributed`: each line that reads as a message of somebody is one of that message.
* `Unforged`: nowhere in the text of a message does it read as somebody else's.
* `attributed_iff`: that is what it takes, for all widths.
-/

import Cherm.Tui.Render

namespace ChermTui

open Lines (Laid Padded Pads)

/-! ### What a line reads as -/

/-- The label a message is shown with. -/
def Message.label (m : Message) : String :=
  if m.system then "✣ System" else if m.outgoing then "you" else m.sender

/-- How a system line begins. -/
def systemStart : List Char := "[✣ System][".toList

def timeMark (time : List Char) : List Char := "][".toList ++ time ++ "]>".toList

/-- The prefix of a message, without the blank at its end. -/
def mark (name time : List Char) : List Char := '[' :: (name ++ timeMark time)

theorem styles_width (palette : Palette) (color : String) (system outgoing : Bool) :
    (styles palette color system outgoing).1.width = 0 ∧
      (styles palette color system outgoing).2.width = 0 := by
  unfold styles
  dsimp only
  split_ifs <;> exact ⟨rfl, rfl⟩

theorem free_of_isTime {time : List Char} (isTime : IsTime time) {c : Char}
    (other : maskDigit c ∉ "00/00/00 - 00:00:00".toList) : c ∉ time :=
  fun inside => other (isTime ▸ List.mem_map_of_mem inside)

theorem timeMark_parts (time : List Char) : timeMark time = "][".toList ++ time ++ [']'] ++ ['>'] := by
  simp [timeMark]

theorem timeMark_once {time : List Char} (isTime : IsTime time) {front back : List Char}
    (whole : timeMark time = front ++ '>' :: back) : back = [] := by
  have free : '>' ∉ "][".toList ++ time ++ [']'] := by
    have time := free_of_isTime isTime (c := '>') (by decide)
    simp [time]
  rw [timeMark_parts] at whole
  exact Lines.nil_of_once free whole

theorem getLast?_mark (name time : List Char) : (mark name time).getLast? = some '>' := by
  rw [mark, timeMark_parts, ← List.append_assoc, ← List.cons_append, List.getLast?_concat]

/-! ### A rendering that breaks at one place -/

/-- A line broken before and behind some characters, with a blank behind these. -/
def cutLine (k j : Nat) (line : List Char) : List (List Char) :=
  [line.take k, (line.drop k).take j ++ [' '], (line.drop k).drop j]

def cutting (k j : Nat) : Renderer := fun style text =>
  if 0 < style.width then ['\n'].intercalate ((text.splitOn '\n').flatMap (cutLine k j)) else text

theorem lines_cutting (k j : Nat) {style : Style} (wide : 0 < style.width) (text : List Char) :
    (cutting k j style text).splitOn '\n' = (text.splitOn '\n').flatMap (cutLine k j) := by
  rw [cutting, if_pos wide]
  apply List.splitOn_intercalate
  · intro part inside breaks
    obtain ⟨line, member, inside⟩ := List.mem_flatMap.mp inside
    refine Lines.not_mem_line member ?_
    simp only [cutLine, List.mem_cons, List.not_mem_nil, or_false] at inside
    rcases inside with rfl | rfl | rfl
    · exact List.mem_of_mem_take breaks
    · have breaks : '\n' ∈ (line.drop k).take j := by simpa using breaks
      exact List.mem_of_mem_drop (List.mem_of_mem_take breaks)
    · exact List.mem_of_mem_drop (List.mem_of_mem_drop breaks)
  · have some := List.splitOn_ne_nil '\n' text
    simpa [cutLine, List.flatMap_eq_nil_iff] using List.exists_mem_of_ne_nil _ some

theorem cutting_lays (k j : Nat) : Lays (cutting k j) := by
  intro style text
  by_cases wide : 0 < style.width
  · let pieces : List Char → List (List Char) := fun line =>
      [line.take k, (line.drop k).take j, (line.drop k).drop j]
    refine ⟨(text.splitOn '\n').map pieces, ?_, fun narrow => absurd wide narrow, ?_⟩
    · rw [List.map_map]
      conv_rhs => rw [← List.map_id (text.splitOn '\n')]
      apply List.map_congr_left
      intro line _
      simp [pieces]
    · rw [lines_cutting k j wide]
      induction text.splitOn '\n' with
      | nil => exact .nil
      | cons line rest ih =>
          rw [List.map_cons, List.flatten_cons, List.flatMap_cons]
          exact Padded.append (.cons (.refl _) (.cons ⟨1, rfl⟩ (.cons (.refl _) .nil))) ih
  · rw [cutting, if_neg wide]
    exact Laid.refl text

section

variable [Clock] (render : Renderer) (palette : Palette)

/-- The message of each line. -/
def sources (msgs : List Message) (width : Int) : List Message :=
  msgs.flatMap fun m => ((renderOne render palette width m).splitOn '\n').map fun _ => m

/-- A line that begins like a system line is one, and a line that begins with a label and a time is
one of a message with that label. -/
structure Attributed (msgs : List Message) (width : Int) : Prop where
  system : ∀ (i : Nat) line,
    ((renderMessages render palette msgs width).splitOn '\n')[i]? = some line →
    systemStart <+: line →
    ∃ m, (sources render palette msgs width)[i]? = some m ∧ m.system = true
  label : ∀ (i : Nat) line,
    ((renderMessages render palette msgs width).splitOn '\n')[i]? = some line →
    ∀ name time, IsTime time → mark name time ++ [' '] <+: line →
    ∃ m, (sources render palette msgs width)[i]? = some m ∧ m.label.toList = name

/-- The text of a message, before it is rendered. -/
def Message.prefixText (m : Message) : List Char :=
  "[".toList ++ m.label.toList ++ "][".toList ++ Clock.format m.ts ++ "]> ".toList

/-- Nowhere in a line of its text does a message read as another one. -/
structure Unforged (m : Message) : Prop where
  system : ∀ line ∈ (m.prefixText ++ m.text.toList).splitOn '\n', systemStart <:+: line →
    m.system = true
  label : ∀ line ∈ (m.prefixText ++ m.text.toList).splitOn '\n', ∀ name time, IsTime time →
    mark name time <:+: line → m.label.toList = name

/-! ### One message -/

/-- What a line of a message may read as. -/
structure Honest (m : Message) (line : List Char) : Prop where
  system : systemStart <+: line → m.system = true
  label : ∀ name time, IsTime time → mark name time ++ [' '] <+: line → m.label.toList = name

variable {render palette} {msgs : List Message} {width : Int} {m : Message}

/-- Each line with its message. -/
def entries (render : Renderer) (palette : Palette) (msgs : List Message) (width : Int) :
    List (Message × List Char) :=
  msgs.flatMap fun m => ((renderOne render palette width m).splitOn '\n').map fun line => (m, line)

theorem mem_entries {line : List Char} : (m, line) ∈ entries render palette msgs width ↔
    m ∈ msgs ∧ line ∈ (renderOne render palette width m).splitOn '\n' := by
  simp [entries]

theorem sources_eq :
    sources render palette msgs width = (entries render palette msgs width).map Prod.fst := by
  simp [sources, entries, List.map_flatMap]

theorem lines_eq (some : msgs ≠ []) : (renderMessages render palette msgs width).splitOn '\n' =
    (entries render palette msgs width).map Prod.snd := by
  have nonempty : msgs.isEmpty = false := by simpa using some
  rw [renderMessages, nonempty, if_neg Bool.false_ne_true,
    Lines.splitOn_intercalate_texts (by simpa using some), List.flatMap_map]
  simp [entries, List.map_flatMap]

/-- The lines of the text are those of the messages, in order. -/
theorem attributed_iff_honest : Attributed render palette msgs width ↔
    ∀ m ∈ msgs, ∀ line ∈ (renderOne render palette width m).splitOn '\n', Honest m line := by
  constructor
  · intro attributed m member line ofMessage
    obtain ⟨i, entry⟩ := List.mem_iff_getElem?.mp (mem_entries.mpr ⟨member, ofMessage⟩)
    have here : ((renderMessages render palette msgs width).splitOn '\n')[i]? = some line := by
      rw [lines_eq (List.ne_nil_of_mem member), List.getElem?_map, entry]
      rfl
    have source : (sources render palette msgs width)[i]? = some m := by
      rw [sources_eq, List.getElem?_map, entry]
      rfl
    refine ⟨fun begins => ?_, fun name time isTime begins => ?_⟩
    · obtain ⟨m', source', system⟩ := attributed.system i line here begins
      obtain rfl := Option.some.inj (source.symm.trans source')
      exact system
    · obtain ⟨m', source', label⟩ := attributed.label i line here name time isTime begins
      obtain rfl := Option.some.inj (source.symm.trans source')
      exact label
  · intro honest
    have found : ∀ (i : Nat) line,
        ((renderMessages render palette msgs width).splitOn '\n')[i]? = some line → line ≠ [] →
        ∃ m, (sources render palette msgs width)[i]? = some m ∧ Honest m line := by
      intro i line here nonempty
      by_cases none : msgs = []
      · subst none
        rw [renderMessages, if_pos (by simp), List.splitOn_nil] at here
        have empty := List.mem_of_getElem? here
        exact absurd (List.mem_singleton.mp empty) nonempty
      · rw [lines_eq none, List.getElem?_map, Option.map_eq_some_iff] at here
        obtain ⟨⟨m, line⟩, entry, rfl⟩ := here
        obtain ⟨member, ofMessage⟩ := mem_entries.mp (List.mem_of_getElem? entry)
        refine ⟨m, ?_, honest m member line ofMessage⟩
        rw [sources_eq, List.getElem?_map, entry]
        rfl
    refine ⟨fun i line here begins => ?_, fun i line here name time isTime begins => ?_⟩
    · have nonempty : line ≠ [] := begins.ne_nil (by decide)
      obtain ⟨m, source, honest⟩ := found i line here nonempty
      exact ⟨m, source, honest.system begins⟩
    · have nonempty : line ≠ [] := begins.ne_nil (List.cons_ne_nil _ _)
      obtain ⟨m, source, honest⟩ := found i line here nonempty
      exact ⟨m, source, honest.label name time isTime begins⟩

/-! ### Where a line comes from -/

/-- Prefix and body are rendered, and then both together, in a box of the width. -/
theorem renderOne_eq (render : Renderer) (palette : Palette) (width : Int) (m : Message) :
    ∃ box : Style, (0 < box.width ↔ 0 < width) ∧
    renderOne render palette width m = render box
      (render (styles palette m.color m.system m.outgoing).1 m.prefixText ++
        render (styles palette m.color m.system m.outgoing).2 m.text.toList) := by
  have shown : (if m.system = true then "✣ System" else if m.outgoing = true then "you"
      else m.sender) = m.label := rfl
  refine ⟨if (m.outgoing && !m.system) = true then
      { (if width > 0 then { newStyle with width := width } else newStyle) with
          background := some palette.outgoingBg }
    else if width > 0 then { newStyle with width := width } else newStyle, ?_, ?_⟩
  · split_ifs <;> simp_all [newStyle]
  · unfold renderOne renderMessage
    dsimp only
    rw [shown]
    rfl

/-- What stands behind the label. -/
def Message.closing (m : Message) : List Char := "][".toList ++ Clock.format m.ts ++ "]> ".toList

/-- The closing is on the last line of the prefix, behind the last line of the label. -/
theorem prefix_lines (m : Message) : ∃ init last,
    ("[".toList ++ m.label.toList).splitOn '\n' = init ++ [last] ∧
      m.prefixText.splitOn '\n' = init ++ [last ++ m.closing] := by
  have free : '\n' ∉ m.closing := by
    have time := free_of_isTime (Clock.format_isTime m.ts) (c := '\n') (by decide)
    simp [Message.closing, time]
  have parts : m.prefixText = ("[".toList ++ m.label.toList) ++ m.closing := by
    simp [Message.prefixText, Message.closing]
  obtain ⟨init, last, first, rest, ofLabel, ofClosing, whole⟩ :=
    @Lines.splitOn_append Char _ '\n' ("[".toList ++ m.label.toList) m.closing
  rw [List.splitOn_eq_singleton free] at ofClosing
  obtain ⟨rfl, rfl⟩ := List.cons.inj ofClosing
  exact ⟨init, last, ofLabel, by rw [parts, whole]⟩

/-- **Behind the prefix there is no second time**: it would make the text read as of a longer name. -/
theorem Unforged.no_mark (unforged : Unforged m) {first time : List Char} {rest : List (List Char)}
    (body : m.text.toList.splitOn '\n' = first :: rest) (isTime : IsTime time) :
    ¬ timeMark time <:+: first := by
  rintro ⟨before, after, inside⟩
  obtain ⟨init, last, ofLabel, ofPrefix⟩ := prefix_lines m
  have member : last ++ m.closing ++ first ∈ (m.prefixText ++ m.text.toList).splitOn '\n' := by
    obtain ⟨init', last', first', rest', ofPrefix', ofBody, whole⟩ :=
      @Lines.splitOn_append Char _ '\n' m.prefixText m.text.toList
    rw [ofPrefix] at ofPrefix'
    rw [body] at ofBody
    obtain ⟨rfl, rfl⟩ := List.cons.inj ofBody
    obtain ⟨_, same⟩ := List.append_inj' ofPrefix' rfl
    rw [whole, List.singleton_inj.mp same]
    exact List.mem_append_right _ List.mem_cons_self
  have oneLine := Lines.not_mem_line member
  -- from the bracket of its own time on, it reads as of this name
  have short := unforged.label _ member (Clock.format m.ts ++ "]> ".toList ++ before) time isTime
    ⟨last ++ [']'], after, by simp [mark, Message.closing, ← inside]⟩
  have single : '\n' ∉ "[".toList ++ m.label.toList := by
    rw [short]
    intro breaks
    refine oneLine ?_
    simp only [Message.closing, ← inside]
    simp at breaks ⊢
    tauto
  rw [List.splitOn_eq_singleton single] at ofLabel
  obtain ⟨rfl, rfl⟩ : init = [] ∧ last = "[".toList ++ m.label.toList := by
    cases init with
    | nil => exact ⟨rfl, (List.singleton_inj.mp ofLabel).symm⟩
    | cons line others => simp at ofLabel
  -- and from its beginning on, as of a longer one than its own
  have long := unforged.label _ member (m.label.toList ++ m.closing ++ before) time isTime
    ⟨[], after, by simp [mark, ← inside]⟩
  have lengths := congrArg List.length long
  simp [Message.closing] at lengths

/-! ### What rendering adds -/

/-- The last line of the prefix is this, a stop and a blank. -/
def Message.opening (m : Message) (last : List Char) : List Char :=
  last ++ "][".toList ++ Clock.format m.ts ++ [']']

/-- A line of a message is a part of a line of its text, with blanks behind it; where prefix and body
meet, there may be blanks between them too. -/
theorem Lays.mem (lays : Lays render) {line : List Char}
    (member : line ∈ (renderOne render palette width m).splitOn '\n') :
    ∃ piece, Pads ' ' piece line ∧
      ((∃ whole ∈ (m.prefixText ++ m.text.toList).splitOn '\n', ∀ part, part <:+: piece →
          part.getLast? ≠ some ' ' → part <:+: whole) ∨
        ∃ last first rest last' first', m.text.toList.splitOn '\n' = first :: rest ∧
          m.opening last ++ ['>'] ++ [' '] ++ first ∈
            (m.prefixText ++ m.text.toList).splitOn '\n' ∧
          Pads ' ' (m.opening last ++ ['>'] ++ [' ']) last' ∧ Pads ' ' first first' ∧
          piece <:+: last' ++ first') := by
  obtain ⟨box, _, is⟩ := renderOne_eq render palette width m
  obtain ⟨noWidth, noWidth'⟩ := styles_width palette m.color m.system m.outgoing
  rw [is] at member
  obtain ⟨x, styled, piece, inside, pads⟩ := (lays box _).mem member
  refine ⟨piece, pads, ?_⟩
  rcases Lines.mem_append_of_padded ((lays _ m.prefixText).padded (by simp [noWidth]))
    ((lays _ m.text.toList).padded (by simp [noWidth'])) styled with
    ⟨whole, ofText, pads'⟩ | ⟨init, last, first, rest, last', first', ofPrefix, ofBody, ofText,
      pads', pads'', rfl⟩
  · exact .inl ⟨whole, ofText, fun part there ends =>
      Lines.infix_of_pads pads' (there.trans inside) ends⟩
  · obtain ⟨_, label, _, ofPrefix'⟩ := prefix_lines m
    obtain ⟨_, same⟩ := List.append_inj' (ofPrefix.symm.trans ofPrefix') rfl
    have parts : last = m.opening label ++ ['>'] ++ [' '] := by
      rw [List.singleton_inj.mp same]
      simp [Message.opening, Message.closing]
    rw [parts] at ofText pads'
    exact .inr ⟨label, first, rest, last', first', ofBody, ofText, pads', pads'', inside⟩

/-- **A line of a message that is not forged reads as that message or as none.** -/
theorem Unforged.honest (unforged : Unforged m) (lays : Lays render) {line : List Char}
    (member : line ∈ (renderOne render palette width m).splitOn '\n') : Honest m line := by
  obtain ⟨piece, pads, place⟩ := lays.mem member
  constructor
  · intro begins
    have inside := (Lines.prefix_of_pads pads begins (by decide)).isInfix
    rcases place with ⟨whole, ofText, parts⟩ |
      ⟨last, first, rest, last', first', _, ofText, pads', pads'', joined⟩
    · exact unforged.system whole ofText (parts systemStart inside (by decide))
    obtain ⟨before, after, whole⟩ := inside.trans joined
    have once : ∀ front back, systemStart = front ++ '>' :: back → back = [] := by
      intro front back same
      have inside : '>' ∈ systemStart := same ▸ List.mem_append_right front List.mem_cons_self
      exact absurd inside (by decide)
    refine unforged.system _ ofText ?_
    rcases Lines.joined_of_stop once (by decide) (by decide) pads' pads'' whole with
      ⟨more, early⟩ | late
    · rw [early]
      exact ⟨before, more ++ [' '] ++ first, by simp⟩
    · exact late.trans (List.suffix_append _ first).isInfix
  · intro name time isTime begins
    have shorter : mark name time <+: line := (List.prefix_append _ _).trans begins
    have ends : (mark name time).getLast? ≠ some ' ' := by simp [getLast?_mark]
    have inside := (Lines.prefix_of_pads pads shorter ends).isInfix
    rcases place with ⟨whole, ofText, parts⟩ |
      ⟨last, first, rest, last', first', ofBody, ofText, pads', pads'', joined⟩
    · exact unforged.label whole ofText name time isTime (parts _ inside ends)
    obtain ⟨before, after, whole⟩ := inside.trans joined
    have whole : before ++ '[' :: name ++ timeMark time ++ after = last' ++ first' := by
      rw [← whole, mark]
      simp
    rcases Lines.joined_of_stop (fun front back => timeMark_once isTime)
      (by simp [timeMark]) (by rw [timeMark_parts, List.getLast?_concat]; decide) pads' pads''
      whole with ⟨more, early⟩ | late
    · refine unforged.label _ ofText name time isTime ?_
      rw [early]
      exact ⟨before, more ++ [' '] ++ first, by simp [mark]⟩
    · exact absurd late (unforged.no_mark ofBody isTime)

/-- **Rendering can break a text before anything that stands in it.** -/
theorem exists_lays (palette : Palette) {whole part : List Char}
    (member : whole ∈ (m.prefixText ++ m.text.toList).splitOn '\n') (inside : part <:+: whole) :
    ∃ render, Lays render ∧ part ++ [' '] ∈ (renderOne render palette 1 m).splitOn '\n' := by
  obtain ⟨before, after, rfl⟩ := inside
  refine ⟨cutting before.length part.length, cutting_lays _ _, ?_⟩
  obtain ⟨box, wide, is⟩ := renderOne_eq (cutting before.length part.length) palette 1 m
  obtain ⟨noWidth, noWidth'⟩ := styles_width palette m.color m.system m.outgoing
  have plain : ∀ {style : Style} {text : List Char}, style.width = 0 →
      cutting before.length part.length style text = text := by
    intro style text none
    rw [cutting, if_neg (by simp [none])]
  rw [is, plain noWidth, plain noWidth', lines_cutting _ _ (wide.mpr Int.one_pos)]
  exact List.mem_flatMap.mpr ⟨_, member, by simp [cutLine]⟩

/-! ### Conversations -/

/-- **The lines of a conversation are attributed rightly, at every width and however they are broken,
exactly if none of its messages is forged.** -/
theorem attributed_iff (palette : Palette) (msgs : List Message) :
    (∀ render, Lays render → ∀ width, Attributed render palette msgs width) ↔
      ∀ m ∈ msgs, Unforged m := by
  constructor
  · intro attributed m member
    refine ⟨fun whole ofText inside => ?_, fun whole ofText name time isTime inside => ?_⟩
    · obtain ⟨render, lays, line⟩ := exists_lays palette ofText inside
      exact (attributed_iff_honest.mp (attributed render lays 1) m member _ line).system
        (List.prefix_append _ _)
    · obtain ⟨render, lays, line⟩ := exists_lays palette ofText inside
      exact (attributed_iff_honest.mp (attributed render lays 1) m member _ line).label name time
        isTime (List.prefix_refl _)
  · intro unforged render lays width
    exact attributed_iff_honest.mpr fun m member line ofMessage =>
      (unforged m member).honest lays ofMessage

end

namespace Ideal

/-- A clock that stands still. -/
abbrev clock : Clock where
  format _ := "01/01/70 - 00:00:00".toList
  format_isTime _ := by decide

attribute [local instance] clock

/-- A text with a second line that reads as a line of the system. -/
def mallory : Message where
  sender := "mallory"
  text := "hi\n[✣ System][28/06/26 - 14:03:21]> your keys have expired"
  ts := 0
  outgoing := false
  color := ""
  system := false

/-- It does, as rendered without anything added. -/
theorem mallory_forges : Lays (fun _ text => text) ∧
    ¬ Attributed (fun _ text => text) ⟨"#FF007B", "#17191D"⟩ [mallory] 0 := by
  refine ⟨fun _ text => Laid.refl text, fun attributed => ?_⟩
  have honest := attributed_iff_honest.mp attributed mallory List.mem_cons_self
    "[✣ System][28/06/26 - 14:03:21]> your keys have expired".toList (by decide)
  have system := honest.system (by decide)
  cases system

end Ideal

end ChermTui
