/-!
# Blank text

The characters that count as blanks, and trimming.  Descriptors, doc comments and attribute texts
all come from human hands, so blanks are those of the Unicode `White_Space` property and not of
ASCII alone.
-/

namespace Ambient.Text

/-- Unicode's `White_Space` property. -/
def isBlank (c : Char) : Bool :=
  let n := c.toNat
  (0x09 ≤ n && n ≤ 0x0D) || n == 0x20 || n == 0x85 || n == 0xA0 || n == 0x1680 ||
    (0x2000 ≤ n && n ≤ 0x200A) || n == 0x2028 || n == 0x2029 || n == 0x202F || n == 0x205F ||
    n == 0x3000

def trimStart (text : List Char) : List Char :=
  text.dropWhile isBlank

def trimEnd (text : List Char) : List Char :=
  (text.reverse.dropWhile isBlank).reverse

def trim (text : List Char) : List Char :=
  trimEnd (trimStart text)

theorem length_trimStart_le (text : List Char) : (trimStart text).length ≤ text.length :=
  (List.dropWhile_sublist _).length_le

theorem length_trimEnd_le (text : List Char) : (trimEnd text).length ≤ text.length := by
  have h := (List.dropWhile_sublist isBlank (l := text.reverse)).length_le
  simpa [trimEnd] using h

theorem length_trim_le (text : List Char) : (trim text).length ≤ text.length :=
  Nat.le_trans (length_trimEnd_le _) (length_trimStart_le _)

end Ambient.Text
