import Worksheet.Key
import Worksheet.Text.Classes

/-!
The prompt at the bottom of the screen: a line of text that grows and shrinks at its end.
-/

namespace Worksheet

/-- What a prompt asks for. -/
inductive PromptKind where
  /-- The text of the current cell. -/
  | edit
  /-- The label of a cell to go to. -/
  | goTo
  /-- The path to save to. -/
  | save
  /-- The path to load from. -/
  | load
deriving DecidableEq, Repr

namespace PromptKind

/-- What stands in front of the prompt. -/
def label : PromptKind → String
  | .edit => "Edit"
  | .goTo => "Goto"
  | .save => "Save as"
  | .load => "Load"

/-- The name of the kind. -/
def name : PromptKind → String
  | .edit => "Edit"
  | .goTo => "Goto"
  | .save => "Save"
  | .load => "Load"

end PromptKind

/-- What a key does to a prompt: it stays open, or it is committed or cancelled. -/
inductive PromptEvent where
  | pending
  | commit
  | cancel
deriving DecidableEq, Repr

/-- Feeds a key to a prompt: printable ASCII is added at the end, and Backspace takes the last
character away, of whatever kind it is. -/
def editLine (text : String) : Key → PromptEvent × String
  | .enter => (.commit, text)
  | .escape | .controlG | .controlC => (.cancel, text)
  | .backspace => (.pending, String.ofList text.toList.dropLast)
  | .byte b =>
    let c := Char.ofNat b.toNat
    if Text.isPrintableAscii c then (.pending, text.push c) else (.pending, text)
  | _ => (.pending, text)

end Worksheet
