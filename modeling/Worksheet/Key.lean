/-!
Keys, and the terminal events they are decoded from.

A `Key` is what the editor reacts to. `Key.ofEvent` decodes an event of the terminal: a pressed or
repeated key counts, and with Control held only `c`, `g` and `h` mean anything.
-/

namespace Worksheet

/-! ## Keys -/

/-- A key as the editor sees it. -/
inductive Key where
  /-- A character of one byte. -/
  | byte (b : UInt8)
  | backspace
  | enter
  | tab
  | backTab
  | up
  | down
  | left
  | right
  | home
  | «end»
  | pageUp
  | pageDown
  | delete
  | controlC
  | controlG
  | escape
  /-- Anything else; it only has the screen drawn again. -/
  | null
deriving DecidableEq, Repr

/-! ## Terminal events -/

/-- The key of a key event. -/
inductive KeyCode where
  | character (c : Char)
  | backspace
  | enter
  | tab
  | backTab
  | up
  | down
  | left
  | right
  | home
  | «end»
  | pageUp
  | pageDown
  | delete
  | escape
  /-- A key without a meaning here. -/
  | other
deriving DecidableEq, Repr

/-- What the terminal reports. -/
inductive TerminalEvent where
  /-- A key, whether Control is held, and whether the key was let go. -/
  | key (code : KeyCode) (control released : Bool)
  /-- A new size, the mouse, the focus or pasted text. -/
  | other
deriving DecidableEq, Repr

namespace Key

/-- The meaning of a key held together with Control. -/
def ofControl : KeyCode → Key
  | .character 'c' => .controlC
  | .character 'g' => .controlG
  | .character 'h' => .backspace
  | _ => .null

/-- The meaning of a key. Characters beyond ASCII have none. -/
def ofCode : KeyCode → Key
  | .character c => if c.toNat < 0x80 then .byte c.toNat.toUInt8 else .null
  | .backspace => .backspace
  | .enter => .enter
  | .tab => .tab
  | .backTab => .backTab
  | .up => .up
  | .down => .down
  | .left => .left
  | .right => .right
  | .home => .home
  | .end => .end
  | .pageUp => .pageUp
  | .pageDown => .pageDown
  | .delete => .delete
  | .escape => .escape
  | .other => .null

/-- Decodes an event. -/
def ofEvent : TerminalEvent → Key
  | .key code control released =>
    if released then .null else if control then ofControl code else ofCode code
  | .other => .null

end Key

end Worksheet
