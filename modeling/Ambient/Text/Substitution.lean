/-!
# Replacing a pattern in a text

One left-to-right pass that replaces every occurrence of a pattern; occurrences do not overlap, and
replaced text is not scanned again.
-/

namespace Ambient.Text

/-- Replaces the occurrences of `pattern` after `skipped` further characters of an occurrence have
been passed over. -/
def replaceFrom (pattern replacement : List Char) : Nat → List Char → List Char
  | _, [] => []
  | skipped + 1, _ :: rest => replaceFrom pattern replacement skipped rest
  | 0, c :: rest =>
    if pattern.isPrefixOf (c :: rest) then
      replacement ++ replaceFrom pattern replacement (pattern.length - 1) rest
    else
      c :: replaceFrom pattern replacement 0 rest

/-- Replaces every occurrence of a non-empty pattern, from left to right. -/
def replaceAll (pattern replacement text : List Char) : List Char :=
  replaceFrom pattern replacement 0 text

end Ambient.Text
