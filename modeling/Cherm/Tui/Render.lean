/-
**The text of a conversation.**

Each message is a prefix with its label and its time, and its body behind it; the messages stand
below one another. A rendered text is taken as it is seen, without the styling.

* `Clock`: the time of a message, in the local zone.
* `Lays`: what rendering may add.
* `renderMessage`, `renderMessages`.
-/

import Cherm.Lib.Lines
import Cherm.Tui.Types

namespace ChermTui

/-! ### Times -/

/-- Digits are alike. -/
def maskDigit (c : Char) : Char := if c.isDigit then '0' else c

/-- A text of the layout DD/MM/YY - HH:MM:SS. -/
def IsTime (text : List Char) : Prop := text.map maskDigit = "00/00/00 - 00:00:00".toList

instance (text : List Char) : Decidable (IsTime text) :=
  inferInstanceAs (Decidable (text.map maskDigit = _))

/-- How a time is shown. -/
class Clock where
  /-- `time.UnixMilli(ts).Format(timeLayout)`. -/
  format : Int → List Char
  format_isTime : ∀ ts, IsTime (format ts)

/-! ### Styles -/

/-- What the styles of messages set; a width that is not positive is none. -/
structure Style where
  bold : Bool
  faint : Bool
  italic : Bool
  foreground : Option String
  background : Option String
  width : Int

/-- `lipgloss.NewStyle`. -/
def newStyle : Style := ⟨false, false, false, none, none, 0⟩

/-- The colours of the palette that messages use. -/
structure Palette where
  pink : String
  outgoingBg : String

/-- The label of a message. -/
def prefixStyle : Style := { newStyle with bold := true }

/-- The text of a message. -/
def bodyStyle : Style := newStyle

/-- The label of a system line. -/
def systemPrefixStyle (palette : Palette) : Style :=
  { newStyle with bold := true, foreground := some palette.pink }

/-- The text of a system line. -/
def systemBodyStyle : Style := { newStyle with faint := true, italic := true }

/-- `Style.Render`, without the styling. -/
abbrev Renderer := Style → List Char → List Char

/-- Rendering breaks the lines of a text where a width is set, and may put blanks behind each. -/
def Lays (render : Renderer) : Prop :=
  ∀ style text, Lines.Laid '\n' ' ' (0 < style.width) text (render style text)

/-! ### Messages -/

section

variable [Clock] (render : Renderer) (palette : Palette)

/-- The styles of the prefix and of the body. -/
def styles (color : String) (system outgoing : Bool) : Style × Style :=
  let (ps, bs) :=
    if system then (systemPrefixStyle palette, systemBodyStyle)
    else if color ≠ "" then
      ({ prefixStyle with foreground := some color }, { bodyStyle with foreground := some color })
    else (prefixStyle, bodyStyle)
  if outgoing && !system then
    ({ ps with background := some palette.outgoingBg },
      { bs with background := some palette.outgoingBg })
  else (ps, bs)

/-- `renderMessage`: a label with the time, then the text. -/
def renderMessage (label : String) (ts : Int) (body color : String) (system outgoing : Bool)
    (width : Int) : List Char :=
  let label := if system then "✣ System" else label
  let before := "[".toList ++ label.toList ++ "][".toList ++ Clock.format ts ++ "]> ".toList
  let (ps, bs) := styles palette color system outgoing
  let line := render ps before ++ render bs body.toList
  let box := if width > 0 then { newStyle with width := width } else newStyle
  let box := if outgoing && !system then { box with background := some palette.outgoingBg } else box
  render box line

/-- A message with the label it is shown with. -/
def renderOne (width : Int) (m : Message) : List Char :=
  let label := if m.outgoing then "you" else m.sender
  renderMessage render palette label m.ts m.text m.color m.system m.outgoing width

/-- The messages, one after the other. -/
def renderMessages (msgs : List Message) (width : Int) : List Char :=
  if msgs.isEmpty then [] else ['\n'].intercalate (msgs.map (renderOne render palette width))

end

end ChermTui
