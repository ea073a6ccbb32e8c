import Stepwise.Value.Depth

/-!
# Limits

Texts that are read and values that are written, shown or copied may go only as deep as the stack
has room for it. How much room there is depends on the interpreter, on what it does at each level
and on where it was called from, so the limits are parameters. All that is known of them is that
what can be written can be read, and that there is room to write a list and to show a scalar.
`Limits.frames` is one example, a stack with so many frames.
-/

namespace Stepwise

/-- **How deep values may go.** -/
class Limits where
  /-- how many arrays and objects may stand in each other in a JSON text that is read -/
  reading : Nat
  /-- how many lists and mappings may stand in each other in a value that is written as JSON -/
  writing : Nat
  writing_pos : 0 < writing
  writing_le_reading : writing ≤ reading
  /-- how many values may stand in each other in one that is shown in a message -/
  showing : Nat
  showing_pos : 0 < showing
  /-- how many collections may stand in each other in a YAML text -/
  composing : Nat
  /-- how many mappings may be merged into each other -/
  merging : Nat
  /-- how many values may be followed to the text that a scalar stands for -/
  following : Nat
  /-- whether progress, given as the object that is written for it, can be copied -/
  copies : Value → Bool
  /-- whether a value of the metadata of a context can be copied -/
  clones : Value → Bool

namespace Limits

/-- The limits of a stack with `n + 1` frames, of which each level takes one. To copy a level or to
compose one takes two. -/
@[reducible] def frames (n : Nat) : Limits where
  reading := n + 1
  writing := n + 1
  writing_pos := Nat.succ_pos n
  writing_le_reading := Nat.le_refl (n + 1)
  showing := n + 1
  showing_pos := Nat.succ_pos n
  composing := n / 2
  merging := n
  following := n
  copies v := 2 * v.depth ≤ n
  clones v := 2 * v.depth ≤ n

/-- The limits of a stack with a thousand frames. -/
@[reducible] def thousandFrames : Limits := frames 999

end Limits

end Stepwise
