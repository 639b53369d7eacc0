import DebugAdapter.Path.Transform
import DebugAdapter.Text.Blank

/-!
# Attach arguments

What a client says when it attaches: a shared secret, path transforms, and whether it wants the
debuggee's output.  A field of the wrong kind counts as left out, so that a missing secret shows as
a refused attach and not as a broken message.
-/

namespace DebugAdapter

structure AttachArguments where
  /-- Trimmed, and never blank. -/
  secret : Option String
  transforms : List Path.Transform
  consoleOutput : Bool

def AttachArguments.ofJson (j : Json) : AttachArguments where
  secret := (j.get? "secret").bind Json.str? |>.bind Text.nonBlank?
  transforms := Path.Transform.listOfJson (j.get? "pathTransforms")
  consoleOutput := ((j.get? "consoleOutput").bind Json.bool?).getD false

end DebugAdapter
