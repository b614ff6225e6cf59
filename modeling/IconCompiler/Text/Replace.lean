/-!
# Replacing parts of a text
-/

namespace IconCompiler.Text

/-- Replaces occurrences of a text that is not empty, from left to right and without overlap;
    `skip` characters still belong to the occurrence replaced last. -/
def replaceFrom (old new : List Char) : Nat → List Char → List Char
  | _, [] => []
  | skip + 1, _ :: cs => replaceFrom old new skip cs
  | 0, c :: cs =>
    if old.isPrefixOf (c :: cs) then new ++ replaceFrom old new (old.length - 1) cs
    else c :: replaceFrom old new 0 cs

/-- Replaces every occurrence of `old` by `new`. The empty text occurs before every character and
    at the end. -/
def replaceAll (old new cs : List Char) : List Char :=
  if old.isEmpty then cs.flatMap (fun c => new ++ [c]) ++ new
  else replaceFrom old new 0 cs

end IconCompiler.Text
