import Ambient.Table

/-!
# Replacements

TypeScript texts for type names.  A replacement stands for a whole atom of a descriptor and takes
part before any other reading of it, so it can take over keywords and array forms as well as
classes.
-/

namespace Ambient

abbrev Replacements := Table String

namespace Replacements

/-- Library types whose values are written as strings or byte buffers. -/
def builtins : Table String :=
  [("uuid::Uuid", "string"),
   ("url::Url", "string"),
   ("chrono::DateTime", "string"),
   ("chrono::NaiveDate", "string"),
   ("chrono::NaiveDateTime", "string"),
   ("time::OffsetDateTime", "string"),
   ("rust_decimal::Decimal", "string"),
   ("bytes::Bytes", "Uint8Array"),
   ("std::time::Duration", "\x7b secs: number; nanos: number \x7d")]

/-- Registers texts one after the other; the last text of a name counts. -/
def registerAll (table : Replacements) (entries : List (String × String)) : Replacements :=
  entries.foldl (fun table entry => Table.set table entry.1 entry.2) table

def registerBuiltins (table : Replacements) : Replacements :=
  table.registerAll builtins

end Replacements

end Ambient
