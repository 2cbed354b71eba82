import Redex.Text.Style

/-!
# Messages

A message is a text in which some parts, its arguments, stand out: they are shown in bold when the
output is decorated. Read without decoration, a message is the concatenation of its parts.
-/

namespace Redex.Text

/-- A part of a message: running text, or an argument that stands out. -/
inductive Span where
  | words (text : String)
  | argument (text : String)
deriving DecidableEq, Repr

/-- A message, part by part. -/
abbrev Message := List Span

namespace Span

/-- The text of a part. -/
def text : Span → String
  | words text => text
  | argument text => text

/-- A part as it is shown. -/
def shown (style : Style) : Span → String
  | words text => text
  | argument text => style.bold text

/-- The text of a part if it is an argument. -/
def argument? : Span → Option String
  | words _ => none
  | argument text => some text

end Span

namespace Message

/-- The whole text of a message. -/
def text (message : Message) : String := String.join (message.map Span.text)

/-- A message as it is shown. -/
def shown (style : Style) (message : Message) : String :=
  String.join (message.map (Span.shown style))

/-- The arguments of a message, in order. -/
def arguments (message : Message) : List String := message.filterMap Span.argument?

/-- Without decoration a message is shown as its text. -/
@[simp] theorem shown_plain (message : Message) : message.shown .plain = message.text := by
  have parts : Span.shown .plain = Span.text := by
    funext span
    cases span <;> rfl
  simp [shown, text, parts]

end Message

end Redex.Text
